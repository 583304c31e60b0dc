import Uncaught.Fix.Edits
import Uncaught.Tree.Codec

/-!
Fixes in JSON. Names and families are left out when there are none; an absent text or range is written
as `null`.
-/

namespace Uncaught

open Json (Decoder Fields Choices Content)

namespace Target

def kindName : Target → String
  | .all => "all"
  | .beginning => "beginning"
  | .ending => "end"
  | .text _ => "text"
  | .pattern _ => "pattern"
  | .select _ => "select"

def toJson (t : Target) : Json :=
  match t with
  | .all | .beginning | .ending => .obj [("kind", .str t.kindName)]
  | .text s | .pattern s | .select s => .obj [("kind", .str t.kindName), ("value", .str s)]

def stringContent (make : String → Target) : Content Target := ⟨Decoder.string.map make, none⟩

def choices : Choices (Content Target) :=
  [("all", Json.noContent "unit variant ReplaceTarget::All" .all),
    ("beginning", Json.noContent "unit variant ReplaceTarget::Beginning" .beginning),
    ("end", Json.noContent "unit variant ReplaceTarget::End" .ending),
    ("text", stringContent .text), ("pattern", stringContent .pattern),
    ("select", stringContent .select)]

def decoder : Decoder Target :=
  Json.adjacent "adjacently tagged enum ReplaceTarget" ⟨"kind", "value"⟩ choices

end Target

namespace FixOptions

def toJson (o : FixOptions) : Json :=
  .obj [("shorten_names", .bool o.shortenNames), ("reformat", .bool o.reformat),
    ("robot", .bool o.robot), ("independent", .bool o.independent)]

def fields : Fields [Bool, Bool, Bool, Bool] :=
  .cons (.required "shorten_names" .bool)
    (.cons (.required "reformat" .bool)
      (.cons (.required "robot" .bool) (.cons (.required "independent" .bool) .nil)))

def decoder : Decoder FixOptions :=
  (fields.decoder "struct ReplaceOptions").map fun (shorten, reformat, robot, independent, _) =>
    ⟨shorten, reformat, robot, independent⟩

end FixOptions

/-- A member for a text, if there is one. -/
def Json.stringMember (key : String) : Option String → List (String × Json)
  | none => []
  | some s => [(key, .str s)]

namespace Replacement

def toMembers (r : Replacement) : List (String × Json) :=
  Json.stringMember "name" r.name ++ Json.stringMember "family" r.family ++
    [("target", r.target.toJson), ("replacement", .ofOption .str r.replacement),
      ("range", .ofOption TextRange.toJson r.range), ("options", r.options.toJson)]

def toJson (r : Replacement) : Json := .obj r.toMembers

def fields :
    Fields [Option String, Option String, Target, Option String, Option TextRange, FixOptions] :=
  .cons (.optional "name" .string)
    (.cons (.optional "family" .string)
      (.cons (.required "target" Target.decoder)
        (.cons (.nullable "replacement" .string)
          (.cons (.nullable "range" TextRange.decoder)
            (.cons (.required "options" FixOptions.decoder) .nil)))))

def decoder : Decoder Replacement :=
  (fields.decoder "struct ReplaceFix").map fun (name, family, target, replacement, range, options, _) =>
    ⟨name, family, target, replacement, range, options⟩

end Replacement

namespace TextEdit

def toJson (e : TextEdit) : Json := .obj [("range", e.range.toJson), ("text", .str e.text)]

def fields : Fields [TextRange, String] :=
  .cons (.required "range" TextRange.decoder) (.cons (.required "text" .string) .nil)

def decoder : Decoder TextEdit :=
  (fields.decoder "struct TextEdit").map fun (range, text, _) => ⟨range, text⟩

end TextEdit

namespace Fix

/-- The members of a group behind its type, with its children as they are written. -/
def groupMembers (name family : Option String) (fixes : List Json) : List (String × Json) :=
  Json.stringMember "name" name ++ Json.stringMember "family" family ++ [("fixes", .arr fixes)]

mutual

def toJson : Fix → Json
  | .replace r => .obj (("type", .str "replace") :: r.toMembers)
  | .composite name family fixes =>
    .obj (("type", .str "composite") :: groupMembers name family (listToJson fixes))
  | .alternatives name family fixes =>
    .obj (("type", .str "alternatives") :: groupMembers name family (listToJson fixes))

def listToJson : List Fix → List Json
  | [] => []
  | fix :: fixes => toJson fix :: listToJson fixes

end

/-- The fields of a group whose children are read by `child`. -/
def groupFields (child : Decoder Fix) : Fields [Option String, Option String, List Fix] :=
  .cons (.optional "name" .string)
    (.cons (.optional "family" .string) (.cons (.required "fixes" (Decoder.list child)) .nil))

def choicesOf (child : Decoder Fix) : Choices (Decoder Fix) :=
  [("replace", Replacement.decoder.map .replace),
    ("composite",
      ((groupFields child).decoder "struct FixGroup").map fun (name, family, fixes, _) =>
        .composite name family fixes),
    ("alternatives",
      ((groupFields child).decoder "struct FixGroup").map fun (name, family, fixes, _) =>
        .alternatives name family fixes)]

/-- Reads a fix in which fixes nest at most `levels` deep. -/
def nestedDecoder : Nat → Decoder Fix
  | 0 => fun _ doc => Decoder.mismatch doc "internally tagged enum LintFix"
  | levels + 1 =>
    Json.tagged "internally tagged enum LintFix" "type" (choicesOf (nestedDecoder levels))

/-- Reads a fix. Every level of fixes is at least one level of the document. -/
def decoder : Decoder Fix := fun o doc => nestedDecoder (doc.depth + 1) o doc

end Fix

end Uncaught
