/-
Arrays and slices whose accesses are checked.

Indexing outside an array, slicing past its end and shifting a word by its width or
more are faults here, where a total model would return some default.  A model written
with these operations therefore shows every point at which the program could go wrong,
and that it never does is one statement: the run is `.ok` of what the total model
computes.

A program that works on one array in place is written with `read` and `write`.  They
also keep a log of the accesses, because an in-place loop has a second way of going
wrong that no bound rules out: reading a cell it has already overwritten.
-/
import Mathlib.Data.List.Basic

namespace Checked

/-- What went wrong. -/
inductive Fault where
  /-- An index that is negative or not below the length. -/
  | index (i : Int) (length : Nat)
  | slice (lo hi length : Nat)
  /-- A shift by the width of the word or more. -/
  | shift (amount width : Nat)
  deriving DecidableEq

section Slices

variable {α : Type} {xs : List α}

/-- `xs[i]`. -/
def index (xs : List α) (i : Nat) : Except Fault α :=
  if h : i < xs.length then .ok xs[i] else .error (.index i xs.length)

/-- `xs[i] = v`. -/
def assign (xs : List α) (i : Nat) (v : α) : Except Fault (List α) :=
  if i < xs.length then .ok (xs.set i v) else .error (.index i xs.length)

/-- `xs[lo:hi]`.  Go compares `hi` with the capacity, which is at least the length. -/
def slice (xs : List α) (lo hi : Nat) : Except Fault (List α) :=
  if lo ≤ hi ∧ hi ≤ xs.length then .ok ((xs.drop lo).take (hi - lo))
  else .error (.slice lo hi xs.length)

/-- `xs[lo:]`. -/
def sliceFrom (xs : List α) (lo : Nat) : Except Fault (List α) := slice xs lo xs.length

/-- A shift amount for a word of the given width. -/
def amount (width n : Nat) : Except Fault Nat :=
  if n < width then .ok n else .error (.shift n width)

theorem index_of_lt {i : Nat} (h : i < xs.length) (d : α) : index xs i = .ok (xs.getD i d) := by
  rw [index, dif_pos h, List.getD_eq_getElem?_getD, List.getElem?_eq_getElem h, Option.getD_some]

theorem assign_of_lt {i : Nat} (h : i < xs.length) (v : α) : assign xs i v = .ok (xs.set i v) :=
  if_pos h

theorem slice_of_le {lo hi : Nat} (hlo : lo ≤ hi) (hhi : hi ≤ xs.length) :
    slice xs lo hi = .ok ((xs.drop lo).take (hi - lo)) :=
  if_pos ⟨hlo, hhi⟩

theorem sliceFrom_of_le {lo : Nat} (h : lo ≤ xs.length) : sliceFrom xs lo = .ok (xs.drop lo) := by
  rw [sliceFrom, slice_of_le h (Nat.le_refl _), ← List.length_drop, List.take_length]

theorem amount_of_lt {width n : Nat} (h : n < width) : amount width n = .ok n := if_pos h

theorem ok_bind {β : Type} (a : α) (f : α → Except Fault β) : (Except.ok a >>= f) = f a := rfl

end Slices

/-! ### Programs on one array

A program that runs through reads and writes cells that exist, and leaves an account of its accesses
in the order in which it made them. -/

/-- One access to a cell of an array. -/
inductive Access where
  | read (i : Nat)
  | write (i : Nat)
  deriving DecidableEq

/-- The array and the accesses so far, oldest first. -/
structure Tracked (α : Type) (n : Nat) where
  cells : Vector α n
  log : List Access

/-- A program that works on an array of `n` cells in place. -/
abbrev Program (α : Type) (n : Nat) := StateT (Tracked α n) (Except Fault)

section Programs

variable {α β : Type} {n : Nat}

/-- The value of `w[i]`. -/
def read (i : Int) : Program α n α := fun s =>
  if h : 0 ≤ i ∧ i.toNat < n then
    .ok (s.cells.get ⟨i.toNat, h.2⟩, { s with log := s.log ++ [.read i.toNat] })
  else .error (.index i n)

/-- `w[i] = v`. -/
def write (i : Int) (v : α) : Program α n Unit := fun s =>
  if h : 0 ≤ i ∧ i.toNat < n then
    .ok ((), ⟨s.cells.set i.toNat v h.2, s.log ++ [.write i.toNat]⟩)
  else .error (.index i n)

/-- An assignment to the whole array. -/
def replace (w : Vector α n) : Program α n Unit := fun s => .ok ((), { s with cells := w })

/-- A loop whose index counts down, from `lo + k - 1` to `lo`. -/
def countdown (body : Nat → Program α n Unit) (lo : Nat) : Nat → Program α n Unit
  | 0 => pure ()
  | k + 1 => do
      body (lo + k)
      countdown body lo k

variable {s : Tracked α n}

/-- A read inside the bounds, and what comes after it. -/
theorem read_bind {i : Nat} (h : i < n) (f : α → Program α n β) :
    (read (i : Int) >>= f) s = f s.cells[i] { s with log := s.log ++ [.read i] } := by
  have hbound : 0 ≤ (i : Int) ∧ (i : Int).toNat < n := ⟨Int.natCast_nonneg i, h⟩
  show (read (i : Int) s >>= fun p => f p.1 p.2) = _
  rw [read, dif_pos hbound]
  rfl

theorem write_of_lt {i : Nat} (h : i < n) (v : α) :
    write (i : Int) v s = .ok ((), ⟨s.cells.set i v, s.log ++ [.write i]⟩) := by
  rw [write, dif_pos ⟨Int.natCast_nonneg i, h⟩]
  rfl

/-- A shift amount in a program. -/
theorem amount_bind {width k : Nat} (h : k < width) (f : Nat → Program α n β) :
    ((amount width k : Program α n Nat) >>= f) s = f k s := by
  show (((amount width k : Program α n Nat)) s >>= fun p => f p.1 p.2) = _
  rw [amount_of_lt h]
  rfl

/-- One part of a program after another. -/
theorem bind_of_ok {x : Program α n β} {γ : Type} {b : β} {s' : Tracked α n}
    (h : x s = .ok (b, s')) (f : β → Program α n γ) : (x >>= f) s = f b s' := by
  show (x s >>= fun p => f p.1 p.2) = _
  rw [h]
  rfl

/-- The program returns `b` and turns the array `w` into `w'`, whatever was accessed before. -/
def Runs (x : Program α n β) (w : Vector α n) (b : β) (w' : Vector α n) : Prop :=
  ∀ log, ∃ log', x ⟨w, log⟩ = .ok (b, ⟨w', log'⟩)

variable {w w' w'' : Vector α n}

theorem Runs.bind {γ : Type} {x : Program α n β} {f : β → Program α n γ} {b : β} {c : γ}
    (hx : Runs x w b w') (hf : Runs (f b) w' c w'') : Runs (x >>= f) w c w'' := by
  intro log
  obtain ⟨log', hx⟩ := hx log
  obtain ⟨log'', hf⟩ := hf log'
  exact ⟨log'', (bind_of_ok hx f).trans hf⟩

theorem runs_pure (b : β) : Runs (pure b) w b w := fun log => ⟨log, rfl⟩

theorem runs_read {i : Nat} (h : i < n) : Runs (read (i : Int)) w w[i] w := fun log =>
  ⟨log ++ [.read i], by rw [read, dif_pos ⟨Int.natCast_nonneg i, h⟩]; rfl⟩

theorem runs_write {i : Nat} (h : i < n) (v : α) : Runs (write (i : Int) v) w () (w.set i v) :=
  fun _ => ⟨_, write_of_lt h v⟩

theorem runs_replace (v : Vector α n) : Runs (replace v) w () v := fun log => ⟨log, rfl⟩

theorem runs_amount {width k : Nat} (h : k < width) :
    Runs (amount width k : Program α n Nat) w k w := by
  intro log
  rw [amount_of_lt h]
  exact ⟨log, rfl⟩

end Programs

/-! ### Reading what was overwritten

A loop that moves cells in place must read each before it writes to it.  An access is spoilt if the
cell was written earlier, and a loop that goes in the right direction has no spoilt read. -/

/-- `a` overwrites the cell that `b` reads. -/
def Access.spoils : Access → Access → Bool
  | .write i, .read j => i == j
  | _, _ => false

/-- No cell is read after it was written. -/
def Unspoilt (log : List Access) : Prop := log.Pairwise fun a b => a.spoils b = false

instance (log : List Access) : Decidable (Unspoilt log) :=
  inferInstanceAs (Decidable (List.Pairwise _ _))

/-- The cell that is accessed. -/
def Access.cell : Access → Nat
  | .read i => i
  | .write i => i

/-- A write spoils nothing that stays below it. -/
theorem spoils_write_of_lt {i : Nat} {a : Access} (h : a.cell < i) :
    (Access.write i).spoils a = false := by
  cases a with
  | read j =>
      have hne : i ≠ j := Nat.ne_of_gt h
      simp [Access.spoils, hne]
  | write j => rfl

/-- **A loop that works its way down never reads what it wrote**: first the reads of a step, then
its write, then accesses to lower cells only. -/
theorem Unspoilt.step {reads log : List Access} {i : Nat} (hreads : ∀ a ∈ reads, ∃ j, a = .read j)
    (hlog : Unspoilt log) (hbelow : ∀ a ∈ log, a.cell < i) :
    Unspoilt (reads ++ .write i :: log) := by
  have hread : ∀ a ∈ reads, ∀ b, a.spoils b = false := by
    intro a ha b
    obtain ⟨j, rfl⟩ := hreads a ha
    rfl
  refine List.pairwise_append.mpr ⟨?_, ?_, fun a ha b _ => hread a ha b⟩
  · exact List.pairwise_iff_forall_sublist.mpr fun {a b} hsub =>
      hread a (hsub.subset List.mem_cons_self) b
  · exact List.pairwise_cons.mpr ⟨fun a ha => spoils_write_of_lt (hbelow a ha), hlog⟩

end Checked
