import Highlight.CommandLine

/-!
# What arguments ask for

`Asks` tells it by the argument that decides. Settings stand in front of it, and it is a request for
help or for the version, an option that stands last without its value, or one that is not Unicode;
if none decides, there is nothing but settings. `parse_eq_iff` says that the arguments ask for just
what `parse` finds in them.
-/

namespace Highlight.CommandLine

/-- Something that the arguments settle about the styling. -/
inductive Setting where
  | list
  | language (name : String)
  | languageFile (path : String)
  | file (path : String)
  deriving DecidableEq

/-- The options that ask for the help text. -/
def helpOptions : List String :=
  ["--help", "-h"]

/-- The options that ask for the version. -/
def versionOptions : List String :=
  ["--version", "-V"]

/-- The options before the name of a language. -/
def languageOptions : List String :=
  ["--language", "-l"]

/-- All arguments that are options. Any other one is a path. -/
def allOptions : List String :=
  helpOptions ++ versionOptions ++ languageOptions ++ ["--list", "--languages"]

/-- The arguments that write a setting. What follows an option with a value is the value, even if it
looks like an option. -/
inductive Setting.Written : Setting → List String → Prop
  | list : Written .list ["--list"]
  | language {option : String} (hoption : option ∈ languageOptions) (name : String) :
      Written (.language name) [option, name]
  | languageFile (path : String) : Written (.languageFile path) ["--languages", path]
  | file {path : String} (hpath : path ∉ allOptions) : Written (.file path) [path]

/-- Arguments that write settings and nothing else. -/
inductive WrittenAll : List Setting → List String → Prop
  | nil : WrittenAll [] []
  | cons {setting : Setting} {settings : List Setting} {front rest : List String}
      (hfront : setting.Written front) (hrest : WrittenAll settings rest) :
      WrittenAll (setting :: settings) (front ++ rest)

namespace Setting

/-- The name of a language that is asked for. -/
def language? : Setting → Option String
  | language name => some name
  | _ => none

/-- The path of a language file. -/
def languageFile? : Setting → Option String
  | languageFile path => some path
  | _ => none

/-- The path of the file to be styled. -/
def file? : Setting → Option String
  | file path => some path
  | _ => none

/-- Options changed by a setting. -/
def apply (setting : Setting) (options : Options) : Options :=
  match setting with
  | list => { options with list := true }
  | language name => { options with language? := some name }
  | languageFile path => { options with languageFiles := options.languageFiles ++ [path] }
  | file path => { options with file? := some path }

end Setting

/-- The options that settings come to: of languages and files the last one, of language files all
in their order. -/
def Options.ofSettings (settings : List Setting) : Options where
  language? := (settings.filterMap Setting.language?).getLast?
  languageFiles := settings.filterMap Setting.languageFile?
  list := settings.contains .list
  file? := (settings.filterMap Setting.file?).getLast?

/-- Texts as arguments. -/
def argumentsOf (texts : List String) : List ByteArray :=
  texts.map String.toUTF8

/-- What arguments ask for, or why the program stops at them. The settings in front are those before
the argument that decides; what follows it does not matter. -/
inductive Asks : List ByteArray → Except Stop Request → Prop
  | help {settings : List Setting} {front : List String} {rest : List ByteArray} {option : String}
      (hfront : WrittenAll settings front) (hoption : option ∈ helpOptions) :
      Asks (argumentsOf front ++ option.toUTF8 :: rest) (.ok .help)
  | version {settings : List Setting} {front : List String} {rest : List ByteArray}
      {option : String} (hfront : WrittenAll settings front) (hoption : option ∈ versionOptions) :
      Asks (argumentsOf front ++ option.toUTF8 :: rest) (.ok .version)
  | missingValue {settings : List Setting} {front : List String} {option : String}
      (hfront : WrittenAll settings front) (hoption : option ∈ "--languages" :: languageOptions) :
      Asks (argumentsOf front ++ [option.toUTF8]) (.error (.failure (.missingValue option)))
  | notUnicode {settings : List Setting} {front : List String} {rest : List ByteArray}
      {argument : ByteArray} (hfront : WrittenAll settings front)
      (hargument : String.fromUTF8? argument = none) :
      Asks (argumentsOf front ++ argument :: rest) (.error (.panic (.notUnicode argument)))
  /-- The value of an option is not Unicode. -/
  | notUnicodeValue {settings : List Setting} {front : List String} {rest : List ByteArray}
      {option : String} {value : ByteArray} (hfront : WrittenAll settings front)
      (hoption : option ∈ "--languages" :: languageOptions)
      (hvalue : String.fromUTF8? value = none) :
      Asks (argumentsOf front ++ option.toUTF8 :: value :: rest)
        (.error (.panic (.notUnicode value)))
  | style {settings : List Setting} {texts : List String} (htexts : WrittenAll settings texts) :
      Asks (argumentsOf texts) (.ok (.style (.ofSettings settings)))

variable {arguments rest : List ByteArray} {front : List String} {settings : List Setting}
  {options : Options} {option text : String} {result : Except Stop Request}

/-- A text is read from its bytes. -/
theorem fromUTF8?_toUTF8 (text : String) : String.fromUTF8? text.toUTF8 = some text :=
  dif_pos text.isValidUTF8

/-- Bytes that are read as a text are those of the text. -/
theorem toUTF8_of_fromUTF8? {bytes : ByteArray} (h : String.fromUTF8? bytes = some text) :
    text.toUTF8 = bytes := by
  unfold String.fromUTF8? at h
  split at h
  · obtain rfl := Option.some.inj h
    rfl
  · cases h

/-- Texts one after the other are arguments one after the other. -/
theorem argumentsOf_append (left right : List String) :
    argumentsOf (left ++ right) = argumentsOf left ++ argumentsOf right :=
  List.map_append

/-- The last setting changes what those before it come to. -/
theorem Options.ofSettings_concat (settings : List Setting) (setting : Setting) :
    ofSettings (settings ++ [setting]) = setting.apply (ofSettings settings) := by
  cases setting <;>
    simp [ofSettings, Setting.apply, Setting.language?, Setting.languageFile?, Setting.file?]

/-- A request for help decides. -/
theorem parse_help (h : option ∈ helpOptions) :
    parse options (option.toUTF8 :: rest) = .ok .help := by
  rw [parse.eq_def]
  simp only [fromUTF8?_toUTF8]
  exact if_pos (by simpa [helpOptions] using h)

/-- A request for the version decides. -/
theorem parse_version (h : option ∈ versionOptions) :
    parse options (option.toUTF8 :: rest) = .ok .version := by
  simp only [versionOptions, List.mem_cons, List.not_mem_nil, or_false] at h
  rw [parse.eq_def]
  simp only [fromUTF8?_toUTF8]
  rcases h with rfl | rfl <;> rfl

/-- An option that stands last without its value decides. -/
theorem parse_missingValue (h : option ∈ "--languages" :: languageOptions) :
    parse options [option.toUTF8] = .error (.failure (.missingValue option)) := by
  simp only [languageOptions, List.mem_cons, List.not_mem_nil, or_false] at h
  rw [parse.eq_def]
  simp only [fromUTF8?_toUTF8]
  rcases h with rfl | rfl | rfl <;> rfl

/-- An argument that is not Unicode decides. -/
theorem parse_notUnicode {argument : ByteArray} (h : String.fromUTF8? argument = none) :
    parse options (argument :: rest) = .error (.panic (.notUnicode argument)) := by
  rw [parse.eq_def]
  simp only [h]

/-- A value that is not Unicode decides. -/
theorem parse_notUnicodeValue (h : option ∈ "--languages" :: languageOptions) {value : ByteArray}
    (hvalue : String.fromUTF8? value = none) :
    parse options (option.toUTF8 :: value :: rest) = .error (.panic (.notUnicode value)) := by
  simp only [languageOptions, List.mem_cons, List.not_mem_nil, or_false] at h
  rw [parse.eq_def]
  simp only [fromUTF8?_toUTF8, hvalue]
  rcases h with rfl | rfl | rfl <;> rfl

/-- A setting is read and the arguments behind it are left. -/
theorem parse_written {setting : Setting} (h : setting.Written front) :
    parse options (argumentsOf front ++ rest) = parse (setting.apply options) rest := by
  rw [parse.eq_def]
  cases h with
  | list => simp only [argumentsOf, List.map_cons, List.cons_append, fromUTF8?_toUTF8]; rfl
  | language hoption name =>
      simp only [languageOptions, List.mem_cons, List.not_mem_nil, or_false] at hoption
      simp only [argumentsOf, List.map_cons, List.cons_append, fromUTF8?_toUTF8]
      rcases hoption with rfl | rfl <;> rfl
  | languageFile path =>
      simp only [argumentsOf, List.map_cons, List.cons_append, fromUTF8?_toUTF8]
      rfl
  | @file path hpath =>
      have hread : String.fromUTF8? path.toByteArray = some path := fromUTF8?_toUTF8 path
      simp only [allOptions, helpOptions, versionOptions, languageOptions, List.cons_append,
        List.nil_append, List.mem_cons, List.not_mem_nil, or_false, not_or] at hpath
      simp [argumentsOf, hread, hpath, Setting.apply]

/-- Settings are read one after the other. -/
theorem parse_writtenAll (h : WrittenAll settings front) (before : List Setting) :
    parse (.ofSettings before) (argumentsOf front ++ rest) =
      parse (.ofSettings (before ++ settings)) rest := by
  induction h generalizing before with
  | nil => rw [List.append_nil]; rfl
  | @cons setting settings front later hfront _ ih =>
      rw [argumentsOf_append, List.append_assoc, parse_written hfront,
        ← Options.ofSettings_concat, ih, List.append_assoc]
      rfl

/-- What the arguments ask for is found in them. -/
theorem parse_of_asks (h : Asks arguments result) : parse .empty arguments = result := by
  cases h with
  | help hfront hoption => exact (parse_writtenAll hfront []).trans (parse_help hoption)
  | version hfront hoption => exact (parse_writtenAll hfront []).trans (parse_version hoption)
  | missingValue hfront hoption =>
      exact (parse_writtenAll hfront []).trans (parse_missingValue hoption)
  | notUnicode hfront hargument =>
      exact (parse_writtenAll hfront []).trans (parse_notUnicode hargument)
  | notUnicodeValue hfront hoption hvalue =>
      exact (parse_writtenAll hfront []).trans (parse_notUnicodeValue hoption hvalue)
  | @style settings texts htexts =>
      have hparse : parse .empty (argumentsOf texts ++ []) = _ := parse_writtenAll htexts []
      rwa [List.append_nil] at hparse

/-- A setting in front of arguments does not change what decides about them. -/
theorem Asks.exists_of_written {setting : Setting} (hfront : setting.Written front)
    (h : ∃ result, Asks rest result) : ∃ result, Asks (argumentsOf front ++ rest) result := by
  obtain ⟨result, h⟩ := h
  cases h with
  | help hsettings hoption =>
      rw [← List.append_assoc, ← argumentsOf_append]
      exact ⟨_, .help (.cons hfront hsettings) hoption⟩
  | version hsettings hoption =>
      rw [← List.append_assoc, ← argumentsOf_append]
      exact ⟨_, .version (.cons hfront hsettings) hoption⟩
  | missingValue hsettings hoption =>
      rw [← List.append_assoc, ← argumentsOf_append]
      exact ⟨_, .missingValue (.cons hfront hsettings) hoption⟩
  | notUnicode hsettings hargument =>
      rw [← List.append_assoc, ← argumentsOf_append]
      exact ⟨_, .notUnicode (.cons hfront hsettings) hargument⟩
  | notUnicodeValue hsettings hoption hvalue =>
      rw [← List.append_assoc, ← argumentsOf_append]
      exact ⟨_, .notUnicodeValue (.cons hfront hsettings) hoption hvalue⟩
  | style hsettings =>
      rw [← argumentsOf_append]
      exact ⟨_, .style (.cons hfront hsettings)⟩

/-- Whatever the arguments are, one of them decides or all of them write settings. -/
theorem exists_asks (arguments : List ByteArray) : ∃ result, Asks arguments result := by
  -- The recursion is that of `parse`, whatever options it begins with.
  generalize hstart : Options.empty = start
  clear hstart
  fun_induction parse start arguments with
  | case1 => exact ⟨_, .style .nil⟩
  | case2 start bytes rest hbytes => exact ⟨_, .notUnicode .nil hbytes⟩
  | case3 start bytes rest argument hbytes hoption =>
      obtain rfl := toUTF8_of_fromUTF8? hbytes
      exact ⟨_, .help .nil (by simpa [helpOptions] using hoption)⟩
  | case4 start bytes rest argument hbytes _ hoption =>
      obtain rfl := toUTF8_of_fromUTF8? hbytes
      exact ⟨_, .version .nil (by simpa [versionOptions] using hoption)⟩
  | case5 start bytes rest hbytes _ _ ih =>
      obtain rfl := toUTF8_of_fromUTF8? hbytes
      exact Asks.exists_of_written .list ih
  | case6 start bytes option hbytes _ _ _ hoption =>
      obtain rfl := toUTF8_of_fromUTF8? hbytes
      exact ⟨_, .missingValue .nil (by simp [languageOptions, hoption])⟩
  | case7 start bytes option hbytes _ _ _ hoption value rest hvalue =>
      obtain rfl := toUTF8_of_fromUTF8? hbytes
      exact ⟨_, .notUnicodeValue .nil (by simp [languageOptions, hoption]) hvalue⟩
  | case8 start bytes option hbytes _ _ _ hoption value rest name hvalue ih =>
      obtain rfl := toUTF8_of_fromUTF8? hbytes
      obtain rfl := toUTF8_of_fromUTF8? hvalue
      exact Asks.exists_of_written (.language (by simpa [languageOptions] using hoption) name) ih
  | case9 start bytes hbytes =>
      obtain rfl := toUTF8_of_fromUTF8? hbytes
      exact ⟨_, .missingValue .nil (by simp)⟩
  | case10 start bytes value rest hvalue hbytes =>
      obtain rfl := toUTF8_of_fromUTF8? hbytes
      exact ⟨_, .notUnicodeValue .nil (by simp) hvalue⟩
  | case11 start bytes value rest path hvalue hbytes _ _ _ _ ih =>
      obtain rfl := toUTF8_of_fromUTF8? hbytes
      obtain rfl := toUTF8_of_fromUTF8? hvalue
      exact Asks.exists_of_written (.languageFile path) ih
  | case12 start bytes rest path hbytes hhelp hversion hlist hlanguage hfiles ih =>
      obtain rfl := toUTF8_of_fromUTF8? hbytes
      refine Asks.exists_of_written (.file ?_) ih
      simp_all [allOptions, helpOptions, versionOptions, languageOptions]

/-- The arguments ask for just what is found in them. -/
theorem parse_eq_iff : parse .empty arguments = result ↔ Asks arguments result := by
  constructor
  · rintro rfl
    obtain ⟨result, h⟩ := exists_asks arguments
    exact (parse_of_asks h).symm ▸ h
  · exact parse_of_asks

end Highlight.CommandLine
