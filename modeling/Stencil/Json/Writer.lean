import Stencil.Json.Printer

/-!
# Writing data

What is handed over to be written need not be a value: the keys of a map are data as well, and not all
data can be keys. So writing can fail. It does not fail for a value, whose keys are texts, and gives its
compact text (`write_ofJson`).
-/

namespace Stencil.Json

/-- Data to be written. The keys of a map can be any data. -/
inductive Datum where
  | null
  | bool (value : Bool)
  | number (value : Number)
  | text (value : String)
  | list (items : List Datum)
  | map (entries : List (Datum × Datum))

inductive Unwritable where
  | keyNotText
  | keyNotFinite
deriving DecidableEq, Repr

namespace Datum

def ofJson : Json → Datum
  | .null => .null
  | .bool b => .bool b
  | .number n => .number n
  | .string s => .text s
  | .array items => .list (ofItems items)
  | .object members => .map (ofMembers members)
where
  ofItems : List Json → List Datum
    | [] => []
    | x :: xs => ofJson x :: ofItems xs
  ofMembers : List (String × Json) → List (Datum × Datum)
    | [] => []
    | (name, x) :: xs => (.text name, ofJson x) :: ofMembers xs

/-- The text of a key, between quotes also where it is no text. -/
def writeKey : Datum → Except Unwritable String
  | .text s => .ok (literal s)
  | .bool b => .ok ("\"" ++ compact (.bool b) ++ "\"")
  | .number (.int n) => .ok ("\"" ++ toString n ++ "\"")
  | .number (.double x) =>
    match x with
    | .finite .. => .ok ("\"" ++ x.toText ++ "\"")
    | _ => .error .keyNotFinite
  | _ => .error .keyNotText

def write : Datum → Except Unwritable String
  | .null => .ok (compact .null)
  | .bool b => .ok (compact (.bool b))
  | .number n => .ok n.toText
  | .text s => .ok (literal s)
  | .list items => return "[" ++ ",".intercalate (← writeItems items) ++ "]"
  | .map entries => return "\x7b" ++ ",".intercalate (← writeEntries entries) ++ "\x7d"
where
  writeItems : List Datum → Except Unwritable (List String)
    | [] => .ok []
    | x :: xs => return (← write x) :: (← writeItems xs)
  writeEntries : List (Datum × Datum) → Except Unwritable (List String)
    | [] => .ok []
    | (key, x) :: xs => return ((← writeKey key) ++ ":" ++ (← write x)) :: (← writeEntries xs)

/-! A value is always written, and its text is the compact one. -/

mutual

/-- A value is data that can be written, and its text is the compact text of the value. Only texts
are keys in it. -/
theorem write_ofJson : ∀ value : Json, (ofJson value).write = .ok value.compact
  | .null => rfl
  | .bool _ => rfl
  | .number _ => rfl
  | .string _ => rfl
  | .array items => by
    rw [ofJson, write, writeItems_ofItems items]
    rfl
  | .object members => by
    rw [ofJson, write, writeEntries_ofMembers members]
    rfl

theorem writeItems_ofItems : ∀ items : List Json,
    write.writeItems (ofJson.ofItems items) = .ok (compact.texts items)
  | [] => rfl
  | x :: xs => by
    rw [ofJson.ofItems, write.writeItems, write_ofJson x, writeItems_ofItems xs]
    rfl

theorem writeEntries_ofMembers : ∀ members : List (String × Json),
    write.writeEntries (ofJson.ofMembers members) = .ok (compact.memberTexts members)
  | [] => rfl
  | (name, x) :: xs => by
    rw [ofJson.ofMembers, write.writeEntries, write_ofJson x, writeEntries_ofMembers xs]
    rfl

end

/-- A map cannot be written if one of its keys is a map. -/
example : (map [(.text "a", .bool true), (.map [], .bool true)]).write = .error .keyNotText :=
  rfl

end Datum

end Stencil.Json
