import Mathlib.Data.Finset.SymmDiff
import Mathlib.Data.Fintype.Basic
import Mathlib.Logic.Function.Basic
import ReflCpp.Simulation
import ReflCpp.TypeData

namespace ReflCpp

open Simulation

/-- `Flags<Derived, ValueT>` for a `ValueT` of `w` bits. -/
structure Flags (w : Nat) where
  value_ : BitVec w
  deriving DecidableEq

namespace Flags

variable {w : Nat} (x flag : Flags w)

def fromValue (value : BitVec w) : Flags w := ⟨value⟩

def isEmpty : Bool := x.value_ = 0

def has : Bool := x.value_ &&& flag.value_ = flag.value_

def is : Bool := x.value_ = flag.value_

def set : Flags w := ⟨x.value_ ||| flag.value_⟩

def clear : Flags w := ⟨x.value_ &&& ~~~flag.value_⟩

def toggle : Flags w := ⟨x.value_ ^^^ flag.value_⟩

/-- `operator|` -/
def or : Flags w := fromValue (x.value_ ||| flag.value_)

end Flags

/-- The flags of a type are `Flags` of eight bits. -/
def TypeFlags.toFlags (f : TypeFlags) : Flags 8 := ⟨f.value_.toBitVec⟩

/-- What a program does with variables that are flags. -/
inductive FlagsAction (w : Nat)
  | assign (x : Nat) (value : BitVec w)
  | set (x flag : Nat)
  | clear (x flag : Nat)
  | toggle (x flag : Nat)
  | or (x y flag : Nat)
  | isEmpty (x : Nat)
  | has (x flag : Nat)
  | is (x flag : Nat)

section Program

variable {w : Nat}

/-- The answer, if the action is a question, and the variables after it. -/
def Flags.exec (st : Nat → Flags w) : FlagsAction w → Option Bool × (Nat → Flags w)
  | .assign x value => (none, Function.update st x (.fromValue value))
  | .set x flag => (none, Function.update st x ((st x).set (st flag)))
  | .clear x flag => (none, Function.update st x ((st x).clear (st flag)))
  | .toggle x flag => (none, Function.update st x ((st x).toggle (st flag)))
  | .or x y flag => (none, Function.update st x ((st y).or (st flag)))
  | .isEmpty x => (some (st x).isEmpty, st)
  | .has x flag => (some ((st x).has (st flag)), st)
  | .is x flag => (some ((st x).is (st flag)), st)

/-- The positions of the ones. -/
def bits (value : BitVec w) : Finset (Fin w) := {i | value.getLsbD i = true}

/-- The same program where the variables are sets of positions. -/
def execSets (st : Nat → Finset (Fin w)) : FlagsAction w → Option Bool × (Nat → Finset (Fin w))
  | .assign x value => (none, Function.update st x (bits value))
  | .set x flag => (none, Function.update st x (st x ∪ st flag))
  | .clear x flag => (none, Function.update st x (st x \ st flag))
  | .toggle x flag => (none, Function.update st x (symmDiff (st x) (st flag)))
  | .or x y flag => (none, Function.update st x (st y ∪ st flag))
  | .isEmpty x => (some (decide (st x = ∅)), st)
  | .has x flag => (some (decide (st flag ⊆ st x)), st)
  | .is x flag => (some (decide (st x = st flag)), st)

end Program

section Bits

variable {w : Nat} {x y : BitVec w} {i : Fin w}

@[simp] theorem mem_bits : i ∈ bits x ↔ x.getLsbD i = true := by simp [bits]

theorem bits_inj : bits x = bits y ↔ x = y := by
  constructor
  · intro h
    apply BitVec.eq_of_getLsbD_eq
    intro i hi
    have hmem := Finset.ext_iff.mp h ⟨i, hi⟩
    rw [mem_bits, mem_bits] at hmem
    exact Bool.eq_iff_iff.mpr hmem
  · rintro rfl
    rfl

theorem bits_zero : bits (0 : BitVec w) = ∅ := by
  ext i
  simp

theorem bits_or : bits (x ||| y) = bits x ∪ bits y := by
  ext i
  simp

theorem bits_clear : bits (x &&& ~~~y) = bits x \ bits y := by
  ext i
  simp

theorem bits_toggle : bits (x ^^^ y) = symmDiff (bits x) (bits y) := by
  ext i
  rw [Finset.mem_symmDiff, mem_bits, mem_bits, mem_bits, BitVec.getLsbD_xor]
  cases x.getLsbD i <;> cases y.getLsbD i <;> simp

theorem bits_and : bits (x &&& y) = bits x ∩ bits y := by
  ext i
  simp

theorem has_eq (x flag : Flags w) : x.has flag = decide (bits flag.value_ ⊆ bits x.value_) := by
  rw [Flags.has, decide_eq_decide, ← bits_inj, bits_and, Finset.inter_eq_right]

theorem is_eq (x flag : Flags w) : x.is flag = decide (bits x.value_ = bits flag.value_) := by
  rw [Flags.is, decide_eq_decide, bits_inj]

theorem isEmpty_eq (x : Flags w) : x.isEmpty = decide (bits x.value_ = ∅) := by
  rw [Flags.isEmpty, decide_eq_decide, ← bits_zero, bits_inj]

end Bits

section Run

variable {w : Nat}

def positions (st : Nat → Flags w) (x : Nat) : Finset (Fin w) := bits (st x).value_

theorem positions_update (st : Nat → Flags w) (x : Nat) (y : Flags w) :
    positions (Function.update st x y) = Function.update (positions st) x (bits y.value_) := by
  funext z
  by_cases hz : z = x
  · rw [hz, positions, Function.update_self, Function.update_self]
  · rw [positions, Function.update_of_ne hz, Function.update_of_ne hz]
    rfl

theorem flags_simulate : Simulates (@Flags.exec w) execSets some some
    (fun st sets => sets = positions st) fun _ _ => True where
  visible := by
    rintro st _ op a rfl _ ⟨⟩
    cases op with
    | assign x value => exact ⟨rfl, (positions_update st x _).symm⟩
    | set x flag =>
      refine ⟨rfl, Eq.trans ?_ (positions_update st x _).symm⟩
      exact congrArg (Function.update (positions st) x) bits_or.symm
    | clear x flag =>
      refine ⟨rfl, Eq.trans ?_ (positions_update st x _).symm⟩
      exact congrArg (Function.update (positions st) x) bits_clear.symm
    | toggle x flag =>
      refine ⟨rfl, Eq.trans ?_ (positions_update st x _).symm⟩
      exact congrArg (Function.update (positions st) x) bits_toggle.symm
    | or x y flag =>
      refine ⟨rfl, Eq.trans ?_ (positions_update st x _).symm⟩
      exact congrArg (Function.update (positions st) x) bits_or.symm
    | isEmpty x => exact ⟨congrArg (fun b => some (some b)) (isEmpty_eq (st x)), rfl⟩
    | has x flag => exact ⟨congrArg (fun b => some (some b)) (has_eq (st x) (st flag)), rfl⟩
    | is x flag => exact ⟨congrArg (fun b => some (some b)) (is_eq (st x) (st flag)), rfl⟩
  hidden := by
    rintro st _ op _ _ h
    cases h

/-- In every program flags behave as sets of positions: the questions have the same answers,
and in the end the variables hold the same sets. -/
theorem flags_refine_sets (st : Nat → Flags w) (ops : List (FlagsAction w)) :
    replies Flags.exec st ops = replies execSets (positions st) ops ∧
      positions (final Flags.exec st ops) = final execSets (positions st) ops := by
  have hrel : positions st = positions st := rfl
  have hok : ∀ before a, before ++ [a] <+: ops → True := fun _ _ _ => trivial
  obtain ⟨hreplies, hfinal⟩ := flags_simulate.run hrel hok
  rw [List.filterMap_some, List.filterMap_some] at hreplies
  rw [List.filterMap_some] at hfinal
  exact ⟨hreplies, hfinal.symm⟩

/-- `IsPointer | IsConst` is asked, then `IsConst` is taken away and put back. -/
example :
    replies Flags.exec (fun _ => ⟨0⟩)
      [ .assign 0 TypeFlags.isPointer.toFlags.value_,
        .assign 1 TypeFlags.isConst.toFlags.value_,
        .or 2 0 1, .has 2 1, .clear 2 1, .is 2 0, .toggle 2 1, .has 2 1 ] =
      [none, none, none, some true, none, some true, none, some true] := by decide

end Run

end ReflCpp
