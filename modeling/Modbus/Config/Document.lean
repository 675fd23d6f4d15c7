/-! Documents: the values that a configuration is written in. -/

namespace Modbus

/-- A value of a document. Of numbers that are no integers nothing is kept. -/
inductive Document where
  | null
  | bool (value : Bool)
  | integer (value : Int)
  | fraction
  | text (value : String)
  | list (items : List Document)
  | record (fields : List (String × Document))
deriving Inhabited

namespace Document

def bool? : Document → Option Bool
  | bool b => some b
  | _ => none

def natBelow? (limit : Nat) : Document → Option Nat
  | integer n => if 0 ≤ n ∧ n < limit then some n.toNat else none
  | _ => none

def text? : Document → Option String
  | text s => some s
  | _ => none

def list? : Document → Option (List Document)
  | list items => some items
  | _ => none

def isNull : Document → Bool
  | null => true
  | _ => false

/-- A document that holds nothing, where an empty record holds nothing too. -/
def isVoid : Document → Bool
  | null | record [] => true
  | _ => false

/-- One of several names: its text, or a record that has `nothing` under that name. -/
def name? (nothing : Document → Bool) : Document → Option String
  | text s => some s
  | record [(s, d)] => if nothing d then some s else none
  | _ => none

def field? (name : String) (fields : List (String × Document)) : Option Document :=
  (fields.find? (·.1 == name)).map (·.2)

/-- The fields with these names, where `none` stands for one that is missing. Values in a list
belong to the names in their order. -/
def fields? (names : List String) : Document → Option (List (Option Document))
  | record fields => some (names.map (field? · fields))
  | list items =>
    if items.length ≤ names.length then
      some (items.map some ++ List.replicate (names.length - items.length) none)
    else none
  | _ => none

/-- A value that may be missing, and is then `standard`. -/
def orElse {α : Type} (read : Document → Option α) (standard : α) : Option Document → Option α
  | none => some standard
  | some d => read d

end Document

end Modbus
