import Highlight.Language

/-!
# The built-in languages

C, C++ and Java. C++ has all keywords of C and more of its own.
-/

namespace Highlight.Language

/-- The keywords of C. -/
def cKeywords : List String := [
  "auto", "break", "case", "char", "const", "continue", "default", "do", "double", "else",
  "enum", "extern", "float", "for", "goto", "if", "inline", "int", "long", "register",
  "restrict", "return", "short", "signed", "sizeof", "static", "struct", "switch", "typedef",
  "union", "unsigned", "void", "volatile", "while", "_Alignas", "_Alignof", "_Atomic", "_Bool",
  "_Complex", "_Generic", "_Imaginary", "_Noreturn", "_Static_assert", "_Thread_local"]

/-- The keywords that C++ adds. -/
def cppKeywords : List String := [
  "alignas", "alignof", "and", "and_eq", "asm", "bitand", "bitor", "bool", "catch", "class",
  "compl", "concept", "consteval", "constexpr", "constinit", "const_cast", "co_await",
  "co_return", "co_yield", "decltype", "delete", "dynamic_cast", "explicit", "export", "false",
  "friend", "mutable", "namespace", "new", "noexcept", "not", "not_eq", "nullptr", "operator",
  "or", "or_eq", "private", "protected", "public", "reinterpret_cast", "requires",
  "static_assert", "static_cast", "template", "this", "thread_local", "throw", "true", "try",
  "typeid", "typename", "using", "virtual", "wchar_t", "xor", "xor_eq"]

/-- The keywords of Java. -/
def javaKeywords : List String := [
  "abstract", "assert", "boolean", "break", "byte", "case", "catch", "char", "class", "const",
  "continue", "default", "do", "double", "else", "enum", "extends", "final", "finally",
  "float", "for", "goto", "if", "implements", "import", "instanceof", "int", "interface",
  "long", "native", "new", "package", "private", "protected", "public", "return", "short",
  "static", "strictfp", "super", "switch", "synchronized", "this", "throw", "throws",
  "transient", "try", "void", "volatile", "while", "true", "false", "null"]

/-- The C language. -/
def c : Language :=
  ⟨"C", ["c", "h"], cKeywords, false⟩

/-- The C++ language. -/
def cpp : Language :=
  ⟨"C++", ["cpp", "hpp", "cc", "cxx", "hh", "hxx"], cKeywords ++ cppKeywords, false⟩

/-- The Java language. -/
def java : Language :=
  ⟨"Java", ["java"], javaKeywords, false⟩

/-- All built-in languages. -/
def builtIn : List Language :=
  [c, cpp, java]

end Highlight.Language
