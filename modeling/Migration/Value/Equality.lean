import Migration.Value.Flag

/-!
# Equal values

When two values count as the same: as keys of a map, or as names of change sets. Numbers are the
same if they are equal, whatever their types, and truth values count as one and zero.

* `Value.equals` — whether two values are the same; maps are never taken for the same
-/

namespace Migration.Value

/-- The integer that a number or a truth value equals. -/
def integer? : Value → Option Int
  | bool b => some (if b then 1 else 0)
  | int n => some n
  | float x => x.integer?
  | _ => none

/-- Whether two scalar values are the same. -/
def equalsScalar (v w : Value) : Bool :=
  match v.asText?, w.asText? with
  | some s, some t => s == t
  | none, none =>
    match v.integer?, w.integer? with
    | some n, some m => n == m
    | none, none =>
      match v, w with
      | null, null => true
      | float x, float y => x != .nan && x == y
      | function k s, function l t => k == l && s == t
      | object o, object p => o == p
      | _, _ => false
    | _, _ => false
  | _, _ => false

mutual

/-- Whether two values are the same. -/
def equals : Value → Value → Bool
  | list vs, list ws => equalItems vs ws
  | v, w => v.equalsScalar w

/-- Whether two lists of values are the same, item by item. -/
def equalItems : List Value → List Value → Bool
  | [], [] => true
  | v :: vs, w :: ws => equals v w && equalItems vs ws
  | _, _ => false

end

/-- Whether a value can be a key of a map. -/
def isKey : Value → Bool
  | list _ | map _ => false
  | object o => o.isKey
  | _ => true

end Migration.Value
