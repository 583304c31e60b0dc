import Uncaught.Tree.Codec

/-!
What the analysis is told. A policy names the exception that has to be handled, the marker of functions
that handle it for the closures they receive, and the helper that a fix wraps a call in. The settings of
a project are kept in a file of its own, which counts as absent if it cannot be read or decoded.
-/

namespace Uncaught

open Json (Decoder Fields)

structure Policy where
  checkedException : String
  safeMarker : String
  safeCallHelper : String
  deriving DecidableEq, Repr

namespace Policy

def defaultHelper : String := "callSafely"

/-- A policy for an exception and a marker, with the usual helper. -/
def ofNames (checked marker : String) : Policy := ⟨checked, marker, defaultHelper⟩

def default : Policy :=
  .ofNames "com.keyboardr.kotlinexceptiontest.CheckedException"
    "com.keyboardr.kotlinexceptiontest.SafeForCheckedException"

def isChecked (p : Policy) (name : String) : Bool := name = p.checkedException

/-- One of the names is the checked exception. -/
def covers (p : Policy) (names : List String) : Bool := names.any p.isChecked

end Policy

structure Settings where
  version : String
  suppress : List String
  treeSuffix : String
  ignorePatterns : List String
  deriving DecidableEq, Repr

namespace Settings

/-- The directory of the settings file in a project. -/
def directory : String := ".throwguard"

def fileName : String := "throwguard.json"

/-- The name of ignore files. -/
def ignoreFileName : String := ".throwguardignore"

def default : Settings := ⟨"0.1.0", [], ".tree.json", []⟩

def toJson (s : Settings) : Json :=
  .obj [("version", .str s.version), ("suppress", .strings s.suppress),
    ("tree_suffix", .str s.treeSuffix), ("ignore_patterns", .strings s.ignorePatterns)]

def fields : Fields [String, List String, String, List String] :=
  .cons (.withDefault "version" .string default.version)
    (.cons (.strings "suppress")
      (.cons (.withDefault "tree_suffix" .string default.treeSuffix)
        (.cons (.strings "ignore_patterns") .nil)))

def decoder : Decoder Settings :=
  (fields.decoder "struct ThrowguardConfig").map fun (version, suppress, suffix, patterns, _) =>
    ⟨version, suppress, suffix, patterns⟩

/-- The settings in a text. -/
def ofText (text : String) : Settings :=
  match decoder.decodeText text with
  | .ok settings => settings
  | .error _ => default

end Settings

end Uncaught
