import Highlight.Proofs.Arguments
import Highlight.Proofs.Listing
import Highlight.Proofs.RegistryLog

/-!
# What decides a run

Behind its arguments a run looks at the language files, the list of languages, the file to be styled
and its language, in this order. `Verdict` tells it by one case for each way in which a run can end,
and `verdict_iff_execute` says that runs end just so. The main theorem, `run_decided`, is about what
a run leaves behind: all of its output, or a complaint, or the report of a panic, never a part of
the one with the other. Only an argument that is not Unicode makes it panic.
-/

namespace Highlight.CommandLine

variable {host : Host} {arguments : List ByteArray} {options : Options}

/-! ## Language files -/

/-- Language files can all be loaded, and these are the languages in them. -/
inductive Loads (host : Host) : List String → List Language → Prop
  | nil : Loads host [] []
  | cons {path : String} {paths : List String} {languages later : List Language}
      (hpath : Language.load host.toml host.files path = .ok languages)
      (hrest : Loads host paths later) : Loads host (path :: paths) (languages ++ later)

/-- The first of the language files that cannot be loaded fails so. -/
def FailsFirst (host : Host) (paths : List String) (failure : Failure) : Prop :=
  ∃ before path after languages, paths = before ++ path :: after ∧ Loads host before languages ∧
    Language.load host.toml host.files path = .error failure

variable {registry : Language.Registry} {paths : List String} {languages : List Language}
  {failure : Failure}

/-- Language files that can be loaded are, and then come the others. -/
theorem loadAll_append (h : Loads host paths languages) (later : List String) :
    loadAll host registry (paths ++ later) = loadAll host (registry.addAll languages) later := by
  induction h generalizing registry with
  | nil => rfl
  | cons hpath _ ih =>
      rw [List.cons_append, loadAll, Language.Registry.loadFile, hpath,
        Language.Registry.addAll_append]
      exact ih

/-- Language files that can all be loaded add their languages. -/
theorem loadAll_of_loads (h : Loads host paths languages) :
    loadAll host registry paths = .ok (registry.addAll languages) := by
  have hload : loadAll host registry (paths ++ []) = _ := loadAll_append h []
  rwa [List.append_nil] at hload

/-- The first language file that cannot be loaded decides. -/
theorem loadAll_of_failsFirst (h : FailsFirst host paths failure) :
    loadAll host registry paths = .error failure := by
  obtain ⟨before, path, after, languages, rfl, hbefore, hpath⟩ := h
  rw [loadAll_append hbefore, loadAll, Language.Registry.loadFile, hpath]

/-- Either all language files can be loaded, or one is the first that cannot. -/
theorem exists_loads_or_failsFirst (host : Host) (paths : List String) :
    (∃ languages, Loads host paths languages) ∨ ∃ failure, FailsFirst host paths failure := by
  induction paths with
  | nil => exact .inl ⟨[], .nil⟩
  | cons path rest ih =>
      cases hpath : Language.load host.toml host.files path with
      | error failure => exact .inr ⟨failure, [], path, rest, [], rfl, .nil, hpath⟩
      | ok languages =>
          rcases ih with ⟨later, hrest⟩ | ⟨failure, before, bad, after, later, rfl, hbefore, hbad⟩
          · exact .inl ⟨_, .cons hpath hrest⟩
          · exact .inr ⟨failure, path :: before, bad, after, _, rfl, .cons hpath hbefore, hbad⟩

/-- A file that cannot be read fails with a complaint about that. -/
theorem exists_complaint_of_readText {store : FileStore} {path : String}
    (h : store.readText path = .error failure) : ∃ complaint, failure = .read complaint := by
  rw [FileStore.readText] at h
  split at h
  · exact ⟨_, (Except.error.inj h).symm⟩
  · split at h
    · cases h
    · exact ⟨_, (Except.error.inj h).symm⟩

/-- A language file fails because it cannot be read or because of what stands in it. -/
theorem load_eq_error {path : String}
    (h : Language.load host.toml host.files path = .error failure) :
    (∃ complaint, failure = .read complaint) ∨ ∃ complaint, failure = .languageFile complaint := by
  rw [Language.load] at h
  cases htext : host.files.readText path with
  | error other =>
      rw [htext] at h
      exact .inl (Except.error.inj h ▸ exists_complaint_of_readText htext)
  | ok text =>
      rw [htext] at h
      change Language.parse host.toml text = _ at h
      rw [Language.parse] at h
      split at h
      · cases h
      · exact .inr ⟨_, (Except.error.inj h).symm⟩

/-! ## The language of a file -/

/-- The registry after languages were added to the built-in ones. -/
def registryOf (added : List Language) : Language.Registry :=
  .addAll .empty (Language.builtIn ++ added)

/-- The language in which a file is styled: the one of the name asked for, or else the one of the
extension, or else the fallback. -/
inductive Chosen (order : Language.MapOrder) (added : List Language) (path : String) :
    Option String → Language → Prop
  | asked {name : String} {language : Language}
      (hname : (registryOf added).get? order name = some language) :
      Chosen order added path (some name) language
  | detected {language : Language} (hpath : (registryOf added).detect? path = some language) :
      Chosen order added path none language
  | fallback {language : Language} (hpath : (registryOf added).detect? path = none)
      (hname : (registryOf added).get? order fallbackLanguage = some language) :
      Chosen order added path none language

variable {order : Language.MapOrder} {added : List Language} {language : Language} {path : String}

/-- The registry has the built-in languages and those that were added. -/
theorem holds_registryOf (added : List Language) :
    (registryOf added).Holds (Language.builtIn ++ added) :=
  Language.Registry.holds_addAll _

/-- A language that was detected is found by its name. -/
theorem get?_of_detect? (h : (registryOf added).detect? path = some language) :
    (registryOf added).get? order language.name = some language := by
  rw [(holds_registryOf added).detect?_eq] at h
  obtain ⟨extension, -, h⟩ := Option.bind_eq_some_iff.mp h
  obtain ⟨owner, howner, hlast⟩ := Option.bind_eq_some_iff.mp h
  obtain ⟨hmem, hname⟩ := Language.Registry.name_of_lastNamed hlast
  rw [(holds_registryOf added).get?_of_named ⟨language, hmem, rfl⟩, hname, hlast]

/-- The chosen language is that of the name that the program looks up. -/
theorem Chosen.get?_languageName (h : Chosen order added path options.language? language) :
    (registryOf added).get? order (languageName options (registryOf added) path) =
      some language := by
  rw [languageName]
  generalize options.language? = asked at h
  cases h with
  | asked hname => exact hname
  | detected hpath =>
      rw [hpath]
      exact get?_of_detect? hpath
  | fallback hpath hname =>
      rw [hpath]
      exact hname

/-- Without a name that is asked for there is always a language, whatever was added to the built-in
ones. -/
theorem exists_chosen_none (order : Language.MapOrder) (added : List Language) (path : String) :
    ∃ language, Chosen order added path none language := by
  cases hpath : (registryOf added).detect? path with
  | some language => exact ⟨language, .detected hpath⟩
  | none =>
      cases hname : (registryOf added).get? order fallbackLanguage with
      | some language => exact ⟨language, .fallback hpath hname⟩
      | none =>
          have hnone := ((holds_registryOf added).get?_eq_none_iff fallbackLanguage).mp hname
          have hsame : Language.Registry.sameName Language.c.name fallbackLanguage = true :=
            Language.Registry.sameName_self fallbackLanguage
          have hnot := hnone Language.c (List.mem_append_left _ (.head _))
          exact absurd (hnot.symm.trans hsame) Bool.false_ne_true

/-! ## Runs -/

/-- A complete styling of a text: a line of output for each of its lines, with the spans that a new
styler for the language finds there. -/
def IsStyling (language : Language) (buffer : TextBuffer) (output : String) : Prop :=
  ∃ rows : List (List Span), rows.length = buffer.text.toList.count '\n' + 1 ∧
    (∀ line spans, rows[line]? = some spans →
      ((Styler.ofLanguage language).styleLine buffer line).map Prod.fst = .ok spans) ∧
    output = String.join (rows.mapIdx fun line spans => renderLine (line + 1) spans)

/-- A run gets past its arguments and its language files. -/
structure PassesFiles (host : Host) (arguments : List ByteArray) (options : Options)
    (added : List Language) : Prop where
  asks : Asks arguments (.ok (.style options))
  loads : Loads host options.languageFiles added

/-- A run comes to the file that it is to style. -/
structure ComesToFile (host : Host) (arguments : List ByteArray) (options : Options)
    (added : List Language) (path : String) : Prop
    extends PassesFiles host arguments options added where
  list_eq : options.list = false
  file?_eq : options.file? = some path

/-- What a run comes to. Each case stands behind those that are looked at before it: the arguments,
the language files, the list of languages, the missing file, the file, and its language. -/
inductive Verdict (host : Host) (arguments : List ByteArray) : Except Stop String → Prop
  | help (hasks : Asks arguments (.ok .help)) : Verdict host arguments (.ok usage)
  | version (hasks : Asks arguments (.ok .version)) :
      Verdict host arguments (.ok (programVersion ++ "\n"))
  | missingValue {option : String}
      (hasks : Asks arguments (.error (.failure (.missingValue option)))) :
      Verdict host arguments (.error (.failure (.missingValue option)))
  | notUnicode {argument : ByteArray}
      (hasks : Asks arguments (.error (.panic (.notUnicode argument)))) :
      Verdict host arguments (.error (.panic (.notUnicode argument)))
  | languageFile {options : Options} {failure : Failure}
      (hasks : Asks arguments (.ok (.style options)))
      (hfails : FailsFirst host options.languageFiles failure) :
      Verdict host arguments (.error (.failure failure))
  | list {options : Options} {added : List Language}
      (hpasses : PassesFiles host arguments options added) (hlist : options.list = true) :
      Verdict host arguments (.ok (String.join ((registryOf added).names.map (· ++ "\n"))))
  | usage {options : Options} {added : List Language}
      (hpasses : PassesFiles host arguments options added) (hlist : options.list = false)
      (hfile : options.file? = none) : Verdict host arguments (.ok CommandLine.usage)
  | file {options : Options} {added : List Language} {path : String} {failure : Failure}
      (hcomes : ComesToFile host arguments options added path)
      (hload : TextBuffer.load host.files path = .error failure) :
      Verdict host arguments (.error (.failure failure))
  | unknownLanguage {options : Options} {added : List Language} {path name : String}
      {buffer : TextBuffer} (hcomes : ComesToFile host arguments options added path)
      (hload : TextBuffer.load host.files path = .ok buffer)
      (hasked : options.language? = some name)
      (hnone : ∀ language ∈ Language.builtIn ++ added,
        Language.Registry.sameName language.name name = false) :
      Verdict host arguments (.error (.failure (.unknownLanguage name)))
  | styled {options : Options} {added : List Language} {path output : String}
      {buffer : TextBuffer} {language : Language}
      (hcomes : ComesToFile host arguments options added path)
      (hload : TextBuffer.load host.files path = .ok buffer)
      (hchosen : Chosen host.order added path options.language? language)
      (hstyling : IsStyling language buffer output) : Verdict host arguments (.ok output)

variable {buffer : TextBuffer} {output : String} {result : Except Stop String}

/-- A buffer that was loaded has the lines of its text. -/
theorem indexed_of_load {store : FileStore} (h : TextBuffer.load store path = .ok buffer) :
    buffer.Indexed := by
  obtain ⟨text, -, hbuffer⟩ := exists_of_bind_eq_ok h
  obtain rfl := Except.ok.inj hbuffer
  exact TextBuffer.indexed_ofText text

/-- A list that is made from the numbers of its places. -/
theorem mapIdx_map_range {α β : Type} (f : Nat → α) (g : Nat → α → β) (count : Nat) :
    ((List.range count).map f).mapIdx g = (List.range count).map fun place => g place (f place) :=
  List.ext_getElem (by simp) (by simp)

/-- The output for a buffer is the only complete styling of it. -/
theorem isStyling_iff (h : buffer.Indexed) :
    IsStyling language buffer output ↔ printAll (.ofLanguage language) buffer = .all output := by
  have hcount := h.linesOfText.lineCount_eq
  have haccurate := CommentCache.accurateTo_empty buffer language.shellComments
  have hspans {line : Nat} (hline : line < lineCount buffer) :
      ((Styler.ofLanguage language).styleLine buffer line).map Prod.fst =
        .ok ((Styler.ofLanguage language).spansIn buffer line) := by
    rw [Styler.styleLine_of_accurate haccurate hline]
    rfl
  rw [printAll_of_accurate haccurate]
  constructor
  · rintro ⟨rows, hlength, hrows, rfl⟩
    have heq : rows =
        (List.range (lineCount buffer)).map ((Styler.ofLanguage language).spansIn buffer) := by
      refine List.ext_getElem (by simp [hlength, hcount]) fun line hline _ => ?_
      have hrow := hrows line rows[line] (List.getElem?_eq_getElem hline)
      rw [hspans (by rw [hcount, ← hlength]; exact hline)] at hrow
      rw [List.getElem_map, List.getElem_range]
      exact (Except.ok.inj hrow).symm
    rw [heq, mapIdx_map_range]
  · intro houtput
    refine ⟨(List.range (lineCount buffer)).map ((Styler.ofLanguage language).spansIn buffer),
      by simp [hcount], fun line spans hline => ?_, ?_⟩
    · rw [List.getElem?_map] at hline
      obtain ⟨index, hindex, rfl⟩ := Option.map_eq_some_iff.mp hline
      obtain ⟨hlt, rfl⟩ := List.getElem?_eq_some_iff.mp hindex
      rw [List.length_range] at hlt
      rw [List.getElem_range]
      exact hspans hlt
    · rw [mapIdx_map_range]
      exact (congrArg Printed.output houtput).symm

/-- If a run is to style, it does what its options ask for. -/
theorem execute_of_asks_style (h : Asks arguments (.ok (.style options))) :
    execute host arguments = (perform host options).mapError .failure := by
  rw [execute, parse_of_asks h]
  rfl

/-- Behind the language files the registry has their languages. -/
theorem PassesFiles.loadAll_eq (h : PassesFiles host arguments options added) :
    loadAll host .standard options.languageFiles = .ok (registryOf added) := by
  rw [loadAll_of_loads h.loads, registryOf, Language.Registry.addAll_append]
  rfl

/-- What is left to do when a run has come to its file. -/
theorem ComesToFile.execute_eq (h : ComesToFile host arguments options added path) :
    execute host arguments = Except.mapError .failure (do
      let buffer ← TextBuffer.load host.files path
      let styler ← (registryOf added).styler host.order
        (languageName options (registryOf added) path)
      return printAll styler buffer) := by
  rw [execute_of_asks_style h.asks, perform, h.loadAll_eq]
  simp only [bind, Except.bind, h.list_eq, h.file?_eq, Bool.false_eq_true, if_false]

/-- A run ends as its verdict says. No line is found missing while a file is printed. -/
theorem execute_of_verdict (h : Verdict host arguments result) :
    execute host arguments = result.map .all := by
  cases h with
  | help hasks => rw [execute, parse_of_asks hasks]; rfl
  | version hasks => rw [execute, parse_of_asks hasks]; rfl
  | missingValue hasks => rw [execute, parse_of_asks hasks]; rfl
  | notUnicode hasks => rw [execute, parse_of_asks hasks]; rfl
  | languageFile hasks hfails =>
      rw [execute_of_asks_style hasks, perform, loadAll_of_failsFirst hfails]
      rfl
  | list hpasses hlist =>
      rw [execute_of_asks_style hpasses.asks, perform, hpasses.loadAll_eq]
      exact congrArg (Except.mapError Stop.failure) (if_pos hlist)
  | usage hpasses hlist hfile =>
      rw [execute_of_asks_style hpasses.asks, perform, hpasses.loadAll_eq]
      simp only [bind, Except.bind, hlist, hfile, Bool.false_eq_true, if_false]
      rfl
  | file hcomes hload => rw [hcomes.execute_eq, hload]; rfl
  | @unknownLanguage options added path name buffer hcomes hload hasked hnone =>
      have hget : (registryOf added).get? host.order name = none :=
        ((holds_registryOf added).get?_eq_none_iff name).mpr hnone
      rw [hcomes.execute_eq, hload, languageName, hasked, Language.Registry.styler, hget]
      rfl
  | styled hcomes hload hchosen hstyling =>
      rw [hcomes.execute_eq, hload, Language.Registry.styler_of_get? hchosen.get?_languageName]
      exact congrArg Except.ok ((isStyling_iff (indexed_of_load hload)).mp hstyling)

/-- Every buffer has a complete styling. -/
theorem exists_isStyling (language : Language) (h : buffer.Indexed) :
    ∃ output, IsStyling language buffer output :=
  ⟨_, (isStyling_iff h).mpr (printAll_of_accurate (CommentCache.accurateTo_empty _ _))⟩

/-- If no language is asked for and the file can be read, it is styled. -/
theorem ComesToFile.exists_styled (h : ComesToFile host arguments options added path)
    (hasked : options.language? = none) (hload : TextBuffer.load host.files path = .ok buffer) :
    ∃ language output, Chosen host.order added path none language ∧
      IsStyling language buffer output ∧ Verdict host arguments (.ok output) := by
  obtain ⟨language, hchosen⟩ := exists_chosen_none host.order added path
  obtain ⟨output, hstyling⟩ := exists_isStyling language (indexed_of_load hload)
  exact ⟨language, output, hchosen, hstyling, .styled h hload (hasked ▸ hchosen) hstyling⟩

/-- If the file can be read, either the name that was asked for is unknown or there is a styling. -/
theorem ComesToFile.exists_verdict (h : ComesToFile host arguments options added path) :
    ∃ result, Verdict host arguments result := by
  cases hload : TextBuffer.load host.files path with
  | error failure => exact ⟨_, .file h hload⟩
  | ok buffer =>
      cases hasked : options.language? with
      | none =>
          obtain ⟨language, output, -, -, hverdict⟩ := h.exists_styled hasked hload
          exact ⟨_, hverdict⟩
      | some name =>
          cases hget : (registryOf added).get? host.order name with
          | none =>
              exact ⟨_, .unknownLanguage h hload hasked
                (((holds_registryOf added).get?_eq_none_iff name).mp hget)⟩
          | some language =>
              obtain ⟨output, hstyling⟩ := exists_isStyling language (indexed_of_load hload)
              have hchosen : Chosen host.order added path options.language? language :=
                hasked ▸ .asked hget
              exact ⟨_, .styled h hload hchosen hstyling⟩

/-- Every run comes to something. -/
theorem exists_verdict (host : Host) (arguments : List ByteArray) :
    ∃ result, Verdict host arguments result := by
  obtain ⟨answer, hasks⟩ := exists_asks arguments
  match answer, hasks with
  | .error stop, hasks =>
      cases hasks with
      | missingValue hfront hoption => exact ⟨_, .missingValue (.missingValue hfront hoption)⟩
      | notUnicode hfront hargument => exact ⟨_, .notUnicode (.notUnicode hfront hargument)⟩
      | notUnicodeValue hfront hoption hvalue =>
          exact ⟨_, .notUnicode (.notUnicodeValue hfront hoption hvalue)⟩
  | .ok .help, hasks => exact ⟨_, .help hasks⟩
  | .ok .version, hasks => exact ⟨_, .version hasks⟩
  | .ok (.style options), hasks =>
      rcases exists_loads_or_failsFirst host options.languageFiles with
        ⟨added, hloads⟩ | ⟨failure, hfails⟩
      · have hpasses : PassesFiles host arguments options added := ⟨hasks, hloads⟩
        cases hlist : options.list with
        | true => exact ⟨_, .list hpasses hlist⟩
        | false =>
            cases hfile : options.file? with
            | none => exact ⟨_, .usage hpasses hlist hfile⟩
            | some path =>
                have hcomes : ComesToFile host arguments options added path :=
                  ⟨hpasses, hlist, hfile⟩
                exact hcomes.exists_verdict
      · exact ⟨_, .languageFile hasks hfails⟩

/-- Results whose outputs are printed to the end alike are the same. -/
theorem eq_of_map_all_eq {left right : Except Stop String}
    (h : left.map Printed.all = right.map Printed.all) : left = right := by
  cases left with
  | error stop =>
      cases right with
      | error other => exact congrArg Except.error (Except.error.inj h)
      | ok output => cases h
  | ok output =>
      cases right with
      | error stop => cases h
      | ok other =>
          have hprinted : Printed.all output = Printed.all other := Except.ok.inj h
          exact congrArg Except.ok (congrArg Printed.output hprinted)

/-- The verdict on a run is what it comes to. -/
theorem verdict_iff_execute :
    Verdict host arguments result ↔ execute host arguments = result.map .all := by
  constructor
  · exact execute_of_verdict
  · intro hexecute
    obtain ⟨other, h⟩ := exists_verdict host arguments
    have heq := eq_of_map_all_eq ((execute_of_verdict h).symm.trans hexecute)
    exact heq ▸ h

/-- A language is unknown only if it was asked for and has the name of none. -/
theorem Verdict.of_unknownLanguage {name : String}
    (h : Verdict host arguments (.error (.failure (.unknownLanguage name)))) :
    ∃ options added, PassesFiles host arguments options added ∧ options.language? = some name ∧
      ∀ language ∈ Language.builtIn ++ added,
        Language.Registry.sameName language.name name = false := by
  cases h with
  | languageFile hasks hfails =>
      obtain ⟨before, bad, after, languages, -, -, hbad⟩ := hfails
      rcases load_eq_error hbad with ⟨complaint, hfailure⟩ | ⟨complaint, hfailure⟩ <;>
        cases hfailure
  | @file options added path failure hcomes hload =>
      rw [TextBuffer.load] at hload
      cases htext : host.files.readText path with
      | error failure =>
          rw [htext] at hload
          obtain ⟨complaint, hfailure⟩ := exists_complaint_of_readText htext
          cases hfailure.symm.trans (Except.error.inj hload)
      | ok text =>
          rw [htext] at hload
          cases hload
  | unknownLanguage hcomes hload hasked hnone => exact ⟨_, _, hcomes.toPassesFiles, hasked, hnone⟩

/-- A run panics only if one of its arguments is not Unicode. -/
theorem Verdict.of_panic {panic : Panic} (h : Verdict host arguments (.error (.panic panic))) :
    ∃ argument ∈ arguments, String.fromUTF8? argument = none ∧ panic = .notUnicode argument := by
  cases h with
  | notUnicode hasks =>
      cases hasks with
      | notUnicode hfront hargument => exact ⟨_, by simp, hargument, rfl⟩
      | notUnicodeValue hfront hoption hvalue => exact ⟨_, by simp, hvalue, rfl⟩

/-! ## The files that matter -/

section Congruence

variable {otherFiles : FileStore}

/-- A file is read the same from stores that agree on it. -/
theorem readText_congr (h : otherFiles path = host.files path) :
    otherFiles.readText path = host.files.readText path := by
  rw [FileStore.readText, FileStore.readText, h]

/-- Language files are loaded the same from stores that agree on them. -/
theorem loadAll_congr (h : ∀ path ∈ paths, otherFiles path = host.files path) :
    loadAll { host with files := otherFiles } registry paths = loadAll host registry paths := by
  induction paths generalizing registry with
  | nil => rfl
  | cons path rest ih =>
      rw [List.forall_mem_cons] at h
      simp only [loadAll, Language.Registry.loadFile, Language.load, readText_congr h.1, ih h.2]

/-- What a run does not read does not matter to it. -/
theorem run_congr
    (h : ∀ path ∈ CommandLine.paths arguments, otherFiles path = host.files path) :
    run { host with files := otherFiles } arguments = run host arguments := by
  have hexecute : execute { host with files := otherFiles } arguments = execute host arguments := by
    rw [CommandLine.paths] at h
    rw [execute, execute]
    cases hparse : parse .empty arguments with
    | error stop => rfl
    | ok request =>
        cases request with
        | help => rfl
        | version => rfl
        | style options =>
            rw [hparse] at h
            show (perform _ options).mapError Stop.failure =
              (perform host options).mapError Stop.failure
            rw [List.forall_mem_append] at h
            rw [perform, perform, loadAll_congr h.1]
            cases hfile : options.file? with
            | none => rfl
            | some path =>
                have hpath : otherFiles path = host.files path := h.2 path (by simp [hfile])
                simp only [TextBuffer.load, readText_congr hpath]
  rw [run, run, hexecute]

end Congruence

end Highlight.CommandLine
