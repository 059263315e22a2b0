import Mathlib.Data.List.Basic

/-! Computations that read a memory cell by cell: what they read, and that nothing else matters. -/

universe u v w

/-- A computation that has its result, or reads one more cell and goes on with what is in it. -/
inductive Reading (ι : Type u) (β : Type v) (α : Type w) where
  | done (a : α)
  | read (i : ι) (next : β → Reading ι β α)

namespace Reading

variable {ι : Type u} {β : Type v} {α γ : Type w}

/-- The result on a memory. -/
def run (memory : ι → β) : Reading ι β α → α
  | done a => a
  | read i next => (next (memory i)).run memory

/-- The cells that are read on a memory, in order. -/
def reads (memory : ι → β) : Reading ι β α → List ι
  | done _ => []
  | read i next => i :: (next (memory i)).reads memory

/-- Go on with the result of a computation. -/
def andThen (p : Reading ι β α) (q : α → Reading ι β γ) : Reading ι β γ :=
  match p with
  | done a => q a
  | read i next => read i fun b => (next b).andThen q

instance : Monad (Reading ι β) where
  pure := done
  bind := andThen

/-- Read one cell. -/
def cell (i : ι) : Reading ι β β := read i done

/-- Read some cells, one after the other. -/
def cells {β : Type w} : List ι → Reading ι β (List β)
  | [] => pure []
  | i :: rest => do
    let b ← cell i
    let more ← cells rest
    return b :: more

section Laws

variable (memory : ι → β)

@[simp] theorem run_pure (a : α) : (pure a : Reading ι β α).run memory = a := rfl

@[simp] theorem reads_pure (a : α) : (pure a : Reading ι β α).reads memory = [] := rfl

@[simp] theorem run_cell (i : ι) : (cell i : Reading ι β β).run memory = memory i := rfl

@[simp] theorem reads_cell (i : ι) : (cell i : Reading ι β β).reads memory = [i] := rfl

/-- The second of two computations runs on the result of the first. -/
@[simp] theorem run_bind (p : Reading ι β α) (q : α → Reading ι β γ) :
    (p >>= q).run memory = (q (p.run memory)).run memory := by
  -- Each read of the first computation is a read of the whole.
  induction p with
  | done a => rfl
  | read i next ih => exact ih (memory i)

/-- Two computations in a row read what the first reads and then what the second does. -/
@[simp] theorem reads_bind (p : Reading ι β α) (q : α → Reading ι β γ) :
    (p >>= q).reads memory = p.reads memory ++ (q (p.run memory)).reads memory := by
  induction p with
  | done a => rfl
  | read i next ih => exact congrArg (i :: ·) (ih (memory i))

end Laws

section Cells

variable {β : Type w} (memory : ι → β)

@[simp] theorem run_cells (places : List ι) :
    (cells places).run memory = places.map memory := by
  induction places with
  | nil => rfl
  | cons i rest ih => simp [cells, ih]

@[simp] theorem reads_cells (places : List ι) : (cells places).reads memory = places := by
  induction places with
  | nil => rfl
  | cons i rest ih => simp [cells, ih]

end Cells

variable {memory memory' : ι → β}

/-- Memories that agree on what is read on one of them give the same result, and the same reads. -/
theorem same_of_agree {p : Reading ι β α} (agree : ∀ i ∈ p.reads memory, memory' i = memory i) :
    p.run memory' = p.run memory ∧ p.reads memory' = p.reads memory := by
  -- As long as the cells read agree, both runs go on with the same computation.
  induction p with
  | done a => exact ⟨rfl, rfl⟩
  | read i next ih =>
    obtain ⟨here, later⟩ := List.forall_mem_cons.mp agree
    obtain ⟨result, reads⟩ := ih (memory i) later
    rw [run, run, Reading.reads, Reading.reads, here]
    exact ⟨result, congrArg (i :: ·) reads⟩

end Reading
