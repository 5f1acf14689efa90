import Migration.Compile.Engine
import Migration.Json.Parser

/-!
# Reading scripts

Scripts are written in JSON: an array of steps. A call is an object with the element under `el`, the
arguments under `args` and the attributes, as pairs, under `kw`; its block stands under `body`, and
the name that its result is kept under stands under `let`. The other steps are `with` and its
`body`, `enter`, `exit`, `raise` with the kind and the text, and `try`.

An attribute is given as JSON. What JSON has no form for is tagged: `float` and `int` with the text
of a number, `dict` with pairs, and `ref` with a name.

* `Script.ofJson?` — the steps of a script
* `SourceFile.ofBytes` — what a file with the given bytes holds
-/

namespace Migration

/-! ## Members are smaller -/

theorem Json.sizeOf_lt_of_member {j v : Json} {name : String} (h : j.member? name = some v) :
    sizeOf v < sizeOf j := by
  unfold member? at h
  split at h
  · rename_i members
    obtain ⟨before, after, split, -⟩ := List.lookup_eq_some_iff.1 h
    have inside : (name, v) ∈ members := by
      rw [← List.mem_reverse, split]
      simp
    have smaller := List.sizeOf_lt_of_mem inside
    simp at smaller ⊢
    omega
  · contradiction

theorem Json.sizeOf_lt_of_item {j : Json} {items : List Json} (h : j.array? = some items)
    {x : Json} (hx : x ∈ items) : sizeOf x < sizeOf j := by
  unfold array? at h
  split at h
  · cases h
    have smaller := List.sizeOf_lt_of_mem hx
    simp
    omega
  · contradiction

namespace Script

/-! ## Expressions -/

mutual

/-- The expression that JSON writes. -/
def exprOf : Json → Option Expr
  | .null => some (.literal .null)
  | .bool b => some (.literal (.bool b))
  | .string s => some (.literal (.text s))
  | .number n => ((Json.number n).int?).map fun n => .literal (.int n)
  | .array items => (exprsOf items).map .list
  | .object [member] => taggedOf member
  | .object _ => none

/-- The expression that a tag with its content writes. -/
def taggedOf : String × Json → Option Expr
  | ("ref", .string name) => some (.name name)
  | ("float", .string s) => (Binary64.parse? s).map fun x => .literal (.float x)
  | ("int", .string s) => (Integer.parse? s).map fun n => .literal (.int n)
  | ("dict", .array entries) => (entriesOf entries).map .map
  | _ => none

/-- The expressions in an array. -/
def exprsOf : List Json → Option (List Expr)
  | [] => some []
  | j :: rest => do
    let x ← exprOf j
    let xs ← exprsOf rest
    return x :: xs

/-- The pairs of expressions in an array. -/
def entriesOf : List Json → Option (List (Expr × Expr))
  | [] => some []
  | .array [k, v] :: rest => do
    let k ← exprOf k
    let v ← exprOf v
    let more ← entriesOf rest
    return (k, v) :: more
  | _ => none

end

/-! ## Steps -/

/-- The items under a name; none if there is nothing under it. -/
def itemsAt (j : Json) (name : String) : Option (List Json) :=
  match j.member? name with
  | none => some []
  | some items => items.array?

/-- The text under a name. -/
def textAt? (j : Json) (name : String) : Option String := (j.member? name).bind (·.string?)

/-- An attribute with the expression that it is given as. -/
def attributeOf : Json → Option (String × Expr)
  | .array [.string name, x] => (exprOf x).map fun x => (name, x)
  | _ => none

/-- The call that an object writes. -/
def callOf (j : Json) : Option Call := do
  let element ← textAt? j "el"
  let positional ← exprsOf (← itemsAt j "args")
  let attributes ← (← itemsAt j "kw").mapM attributeOf
  return { element, positional, attributes }

/-- The step without a block that an object writes. -/
def flatOf (j : Json) : Option Node :=
  match j.member? "raise", textAt? j "enter", textAt? j "exit", textAt? j "let" with
  | some (.array [.string kind, .string text]), _, _, _ => some (.raise kind text)
  | _, some name, _, _ => some (.enter name)
  | _, _, some name, _ => some (.exit name)
  | _, _, _, some name => (callOf j).map (.keep name)
  | _, _, _, _ => (callOf j).map .call

/-- The step that an object writes. -/
def nodeOf (j : Json) : Option Node :=
  match h : j.member? "try", h' : j.member? "body" with
  | some body, _ =>
    match hi : body.array? with
    | none => none
    | some items => Node.attempt <$> items.attach.mapM fun ⟨x, hx⟩ =>
      have := Json.sizeOf_lt_of_member h
      have := Json.sizeOf_lt_of_item hi hx
      nodeOf x
  | none, some body =>
    match hi : body.array? with
    | none => none
    | some items => do
      let nodes ← items.attach.mapM fun ⟨x, hx⟩ =>
        have := Json.sizeOf_lt_of_member h'
        have := Json.sizeOf_lt_of_item hi hx
        nodeOf x
      match textAt? j "with" with
      | some name => return .reopen name nodes
      | none => return .block (← callOf j) nodes
  | none, none => flatOf j
termination_by sizeOf j

/-- The steps of a script. -/
def ofJson? (j : Json) : Option (List Node) := j.array?.bind (·.mapM nodeOf)

end Script

/-- What a file with the given bytes holds. A script without any bytes has no steps, and bytes that
are no text are left to the encoding. -/
def SourceFile.ofBytes (isScript : Bool) (bytes : List UInt8) : SourceFile :=
  if !isScript || bytes.isEmpty then .bytes bytes
  else match String.fromUTF8? ⟨bytes.toArray⟩ with
    | none => .bytes bytes
    | some text =>
      match (Json.parse? text).bind Script.ofJson? with
      | some nodes => .script nodes
      | none => .broken

end Migration
