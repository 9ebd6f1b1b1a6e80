import Formula.Proofs.Environment.Cells
import Formula.Proofs.Evaluation.Invariant

/-! # Names stay

Nothing that is evaluated takes a name away that the environment had before. A construct that preserves
names removes only those that it found missing.
-/
namespace Formula

def Environment.StaysIn (before after : Environment) : Prop :=
  ∀ ⦃name⦄, before.contains name = true → after.contains name = true

namespace Environment.StaysIn

variable {first second third : Environment}

theorem refl (env : Environment) : env.StaysIn env := fun _ h => h

theorem trans (h : first.StaysIn second) (k : second.StaysIn third) : first.StaysIn third :=
  fun _ hname => k (h hname)

theorem define (env : Environment) (name : String) (entry : Entry) :
    env.StaysIn (env.define name entry) := by
  intro other hother
  change ((env.define name entry).cell? other).isSome = true
  by_cases heq : other = name
  · rw [heq, cell?_define_self]
    rfl
  · rw [cell?_define_of_ne heq]
    exact hother

theorem bind (env : Environment) (name : String) (value : Value) : env.StaysIn (env.bind name value) :=
  define env name _

theorem read (env : Environment) (name : String) : env.StaysIn (env.read name).2 := by
  intro other hother
  change ((env.read name).2.cell? other).isSome = true
  rw [cell?_read, lookup]
  split
  next => exact hother
  next => exact define env name _ hother

theorem restore_save (hsecond : first.StaysIn second) (hthird : first.StaysIn third)
    (names : List String) : first.StaysIn (third.restore (second.save names)) := by
  intro name hname
  change ((third.restore (second.save names)).cell? name).isSome = true
  rw [cell?_restore_save]
  split
  next => exact hsecond hname
  next => exact hthird hname

/-- Nothing has to be known of the values. -/
theorem invariant (env : Environment) : Invariant env.StaysIn fun _ => True where
  bind name h _ := h.trans (.bind _ name _)
  read name h := h.trans (.read _ name)
  value _ _ := trivial
  restore names hbefore h := hbefore.restore_save h names
  boundTo _ _ := trivial

end Environment.StaysIn

def Retains {α : Type} (force : State → Except Failure α × State) : Prop :=
  ∀ state : State, state.environment.StaysIn (force state).2.environment

theorem Node.force_retains (settings : Settings) (node : Node) (room : Option Nat) :
    Retains (node.force settings room) := by
  intro state
  have hnode := node.gives_trivially settings
  have hleaves :=
    Node.force_leaves settings (Environment.StaysIn.invariant state.environment) node hnode room (.refl _)
  exact hleaves.environment

theorem Tree.evaluate_retains (settings : Settings) (tree : Tree) : Retains (tree.evaluate settings) := by
  intro state
  have hroot := tree.root.gives_trivially settings
  have hleaves :=
    tree.evaluate_leaves settings (Environment.StaysIn.invariant state.environment) hroot (.refl _)
  exact hleaves.environment

end Formula
