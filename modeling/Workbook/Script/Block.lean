/-
The variables of running scripts.  A name means the variable of the nearest block
that declares it.
-/
import Workbook.Store

namespace Workbook
namespace Block

/-- Gives a variable to a name. -/
def set (b : Block) (name : String) (v : Variable) : Block :=
  { b with bindings := Keyed.put name v b.bindings }

end Block

namespace Store

/-- The block that declares what a name means in a block, and the variable.  A block
is made after the block around it, so the search goes to lower places only. -/
def resolve? (s : Store) (place : Nat) (name : String) : Option (Nat × Variable) :=
  match s.blocks[place]? with
  | none => none
  | some b =>
    match b.bindings.lookup name, b.parent with
    | some v, _ => some (place, v)
    | none, some outer => if outer < place then s.resolve? outer name else none
    | none, none => none
termination_by place

/-- The value of a name that a block, or one around it, declares. -/
def valueOf? (s : Store) (place : Nat) (name : String) : Option Native :=
  (s.resolve? place name).map (·.2.value)

/-- Gives a variable to a name in a block. -/
def setVariable (s : Store) (place : Nat) (name : String) (v : Variable) : Store :=
  { s with blocks := s.blocks.modify place fun b => b.set name v }

end Store

namespace Run

/-- A new block without variables. -/
def newBlock (parent : Option Nat) : Run Nat :=
  modifyGet fun s => (s.blocks.size, { s with blocks := s.blocks.push ⟨[], parent⟩ })

/-- Declares a name, whatever it meant before: a parameter or a declared function. -/
def define (block : Nat) (name : String) (value : Native) : Run Unit :=
  modify (·.setVariable block name ⟨value, false⟩)

/-- Declares a name that its block has not declared before. -/
def declare (block : Nat) (name : String) (how : Script.Declarator) (value : Native) :
    Run Unit := do
  if ((← get).blocks[block]?).any fun b => (b.bindings.lookup name).isSome then
    fail (.runtime ("'" ++ name ++ "' has already been declared"))
  modify (·.setVariable block name ⟨value, how = .constant⟩)

/-- Assigns to the variable that a name means.  Names that no block declares are
read-only. -/
def assign (block : Nat) (name : String) (value : Native) : Run Unit := do
  match (← get).resolve? block name with
  | some (place, v) =>
    if v.constant then fail (.constantAssigned name)
    modify (·.setVariable place name ⟨value, false⟩)
  | none => fail (.readOnly name)

end Run
end Workbook
