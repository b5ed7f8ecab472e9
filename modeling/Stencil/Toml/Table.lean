import Stencil.Toml.Value

/-!
# Tables under construction

A file builds its tables line by line. A table stands for itself once it has a header; before that it
may be there only because a longer header or a dotted key names it. A table may be opened once, a
dotted key may not add to a table with a header, and a value is final.
-/

namespace Stencil.Toml

/-- Something in a table under construction. A table is implied as long as it has no header of its own,
and dotted if a dotted key made it; the tables of an array are given last one first. -/
inductive Node where
  | value (value : Value)
  | table (implied dotted : Bool) (entries : List (String × Node))
  | tables (last : List (String × Node)) (others : List (List (String × Node)))
deriving Repr, Inhabited

abbrev Entries := List (String × Node)

structure Table where
  implied : Bool := false
  dotted : Bool := false
  entries : Entries := []
deriving Inhabited

/-- With an entry replaced, or added at the end. -/
def put (key : String) (node : Node) : Entries → Entries
  | [] => [(key, node)]
  | (other, old) :: rest =>
    if other = key then (key, node) :: rest else (other, old) :: put key node rest

def Node.freeze : Node → Value
  | .value v => v
  | .table _ _ entries => .table (freezeEntries entries)
  | .tables last others =>
    .array (freezeTables others [.table (freezeEntries last)])
where
  freezeEntries : List (String × Node) → List (String × Value)
    | [] => []
    | (key, node) :: rest => (key, freeze node) :: freezeEntries rest
  freezeTables : List (List (String × Node)) → List Value → List Value
    | [], after => after
    | entries :: before, after => freezeTables before (.table (freezeEntries entries) :: after)

namespace Table

def node (t : Table) : Node := .table t.implied t.dotted t.entries

/-- Changes the table that a path of keys leads to. Missing tables are made on the way, dotted or not;
the last table of an array stands for the array. No way leads through a value, and a dotted one none
through a table with a header. -/
def change (dotted : Bool) (f : Table → Option Table) : (path : List String) → Table → Option Table
  | [], t => f t
  | key :: rest, t => do
    match t.entries.lookup key with
    | none =>
      let made ← change dotted f rest { implied := true, dotted }
      return { t with entries := put key made.node t.entries }
    | some (.value _) => none
    | some (.tables last others) =>
      let changed ← change dotted f rest { entries := last }
      return { t with entries := put key (.tables changed.entries others) t.entries }
    | some (.table implied isDotted entries) =>
      if dotted && !implied then none
      else
        let changed ← change dotted f rest ⟨implied, isDotted, entries⟩
        return { t with entries := put key changed.node t.entries }

def add (key : String) (v : Value) (t : Table) : Option Table :=
  match t.entries.lookup key with
  | some _ => none
  | none => some { t with entries := t.entries ++ [(key, .value v)] }

/-- With the value of a key, which may be dotted. Keys with dots and without do not meet in a table that
is not there for them alone. -/
def assign (path : List String) (key : String) (v : Value) (t : Table) : Option Table :=
  t.change true (fun inner => if inner.dotted == path.isEmpty then none else inner.add key v) path

def openTable (path : List String) (key : String) (t : Table) : Option Table :=
  t.change false (fun inner =>
    match inner.entries.lookup key with
    | none => some { inner with entries := inner.entries ++ [(key, .table false false [])] }
    | some (.table true false entries) =>
      some { inner with entries := put key (.table false false entries) inner.entries }
    | some _ => none) path

def openArrayTable (path : List String) (key : String) (t : Table) : Option Table :=
  t.change false (fun inner =>
    match inner.entries.lookup key with
    | none => some { inner with entries := inner.entries ++ [(key, .tables [] [])] }
    | some (.tables last others) =>
      some { inner with entries := put key (.tables [] (last :: others)) inner.entries }
    | some _ => none) path

end Table

end Stencil.Toml
