import Conduit.Json.Basic

/-!
Pieces of decoding that several types share: names of plain alternatives, and records given either
as an object or as the array of their fields.
-/
namespace Conduit.Json

/-- The alternative with the name. It may also be given as an object with that name alone and null
under it. -/
def choice? (name : α → String) (all : List α) : Json → Option α
  | .str s => all.find? fun a => name a == s
  | .obj [(s, .null)] => all.find? fun a => name a == s
  | _ => none

def record? (names : List String) : Json → Option (List (Option Json))
  | .obj fields => some (names.map (field? fields))
  | .arr items =>
    if items.length ≤ names.length then
      some (items.map some ++ List.replicate (names.length - items.length) none)
    else none
  | _ => none

def required (decode : Json → Option α) : Option Json → Option α
  | some v => decode v
  | none => none

def defaulting (decode : Json → Option α) (default : α) : Option Json → Option α
  | some v => decode v
  | none => some default

def nullable (decode : Json → Option α) : Json → Option (Option α)
  | .null => some none
  | v => (decode v).map some

end Conduit.Json
