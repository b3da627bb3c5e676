import Mathlib.Tactic
import TinyAgentOS.Library.Dict
import TinyAgentOS.Library.Transition

/-!
# Interleaved transactions on one cell

A transaction is a program that acquires locks, reads a shared cell any number
of times and may end with a write.  Calls run their programs side by side; each
access to the cell is atomic, and a call is over, its locks given back, with its
last access.

A step is coherent when the access that ends a call does what the whole program,
run alone at that moment, would do.  Coherent runs are serial in the order in
which the calls end.  Calls that hold one lock throughout are coherent as long as
no other call writes while one of them has read.

Main results:

- `Disciplined.step`: the lock discipline is kept by every quiet step.
- `Disciplined.coherent`: a locked call is coherent.
-/

namespace Transactions

open Collections Transition

variable {σ ρ κ ℓ : Type}

/-- A program on a shared cell. -/
inductive Txn (σ ρ ℓ : Type) where
  | acquire (lock : ℓ) (next : Txn σ ρ ℓ)
  | read (next : σ → Txn σ ρ ℓ)
  | write (value : σ) (result : ρ)
  | done (result : ρ)

namespace Txn

/-- Run a program alone. -/
def exec : Txn σ ρ ℓ → σ → σ × ρ
  | acquire _ next, cell => next.exec cell
  | read next, cell => (next cell).exec cell
  | write value result, _ => (value, result)
  | done result, cell => (cell, result)

/-- The result of a program that has nothing left to do. -/
def result? : Txn σ ρ ℓ → Option ρ
  | done result => some result
  | _ => none

@[simp]
theorem exec_acquire (lock : ℓ) (next : Txn σ ρ ℓ) (cell : σ) :
    (acquire lock next).exec cell = next.exec cell :=
  rfl

@[simp]
theorem exec_read (next : σ → Txn σ ρ ℓ) (cell : σ) :
    (read next).exec cell = (next cell).exec cell :=
  rfl

@[simp]
theorem exec_write (value : σ) (result : ρ) (cell : σ) :
    (write value result : Txn σ ρ ℓ).exec cell = (value, result) :=
  rfl

@[simp]
theorem exec_done (result : ρ) (cell : σ) : (done result : Txn σ ρ ℓ).exec cell = (cell, result) :=
  rfl

theorem eq_done_of_result? {t : Txn σ ρ ℓ} {r : ρ} (h : t.result? = some r) : t = done r := by
  cases t with
  | done result =>
    cases h
    rfl
  | acquire | read | write => cases h

end Txn

/-- A call in flight: what is left of its program, its locks and what it read. -/
structure Running (σ ρ κ ℓ : Type) where
  call : κ
  rest : Txn σ ρ ℓ
  held : List ℓ
  reads : List σ

/-- A call that is over, and the cell before and after its last access. -/
structure Finished (σ ρ κ : Type) where
  call : κ
  before : σ
  after : σ
  result : ρ

/-! ## Serial histories -/

section Serial

variable (program : κ → Txn σ ρ ℓ)

/-- The calls, one after another, take the cell from one value to the other. -/
def SerialFrom (start : σ) : List (Finished σ ρ κ) → σ → Prop
  | [], cell => start = cell
  | f :: fs, cell =>
    f.before = start ∧ ((program f.call).exec start).1 = f.after ∧
      SerialFrom f.after fs cell

/-- Run calls one after another, each alone. -/
def serialRun (start : σ) (calls : List κ) : σ :=
  calls.foldl (fun cell call => ((program call).exec cell).1) start

variable {program}

variable {cell start : σ} {fs : List (Finished σ ρ κ)}

variable {f : Finished σ ρ κ}

theorem SerialFrom.append (h : SerialFrom program start fs cell)
    (hbefore : f.before = cell) (hafter : ((program f.call).exec cell).1 = f.after) :
    SerialFrom program start (fs ++ [f]) f.after := by
  induction fs generalizing start with
  | nil =>
    cases h
    exact ⟨hbefore, hafter, rfl⟩
  | cons g gs ih =>
    rcases h with ⟨hg, hexec, hrest⟩
    exact ⟨hg, hexec, ih hrest⟩

theorem SerialFrom.serialRun_eq (h : SerialFrom program start fs cell) :
    serialRun program start (fs.map Finished.call) = cell := by
  induction fs generalizing start with
  | nil => exact h
  | cons f fs ih =>
    rcases h with ⟨_, hexec, hrest⟩
    rw [List.map_cons, serialRun, List.foldl_cons, hexec]
    exact ih hrest

/-- Each call of a serial history turned the cell it found into the cell it left. -/
theorem SerialFrom.exec_eq (h : SerialFrom program start fs cell)
    (hf : f ∈ fs) : ((program f.call).exec f.before).1 = f.after := by
  induction fs generalizing start with
  | nil => simp at hf
  | cons g gs ih =>
    rcases h with ⟨hg, hexec, hrest⟩
    rcases List.mem_cons.mp hf with rfl | hmem
    · rw [hg]
      exact hexec
    · exact ih hrest hmem

end Serial

/-! ## Interleavings -/

/-- The cell, the calls in flight, and the calls that are over, oldest first. -/
structure Pool (σ ρ κ ℓ : Type) where
  cell : σ
  running : Dict Nat (Running σ ρ κ ℓ)
  finished : List (Finished σ ρ κ)

/-- A pool without calls. -/
def Pool.init (cell : σ) : Pool σ ρ κ ℓ := ⟨cell, Dict.empty, []⟩

/-- A call comes in, or one in flight makes its next access. -/
inductive PoolEvent (κ : Type) where
  | start (thread : Nat) (call : κ)
  | advance (thread : Nat)

variable [DecidableEq ℓ] {program : κ → Txn σ ρ ℓ}

/-- Some call in flight holds the lock. -/
def Pool.Locked (s : Pool σ ρ κ ℓ) (lock : ℓ) : Prop :=
  ∃ t ∈ s.running.values, lock ∈ t.held

instance (s : Pool σ ρ κ ℓ) (lock : ℓ) : Decidable (s.Locked lock) :=
  inferInstanceAs (Decidable (∃ t ∈ s.running.values, lock ∈ t.held))

/-- One access of a call, unless it waits for a lock: what is left of it and the cell. -/
def access (s : Pool σ ρ κ ℓ) (t : Running σ ρ κ ℓ) : Option (Running σ ρ κ ℓ × σ) :=
  match t.rest with
  | .acquire lock next =>
    if s.Locked lock then none
    else some ({ t with rest := next, held := lock :: t.held }, s.cell)
  | .read next => some ({ t with rest := next s.cell, reads := t.reads ++ [s.cell] }, s.cell)
  | .write value result => some ({ t with rest := .done result }, value)
  | .done _ => some (t, s.cell)

/-- Put a call back, or file it when it has nothing left to do. -/
def settle (s : Pool σ ρ κ ℓ) (thread : Nat) (t : Running σ ρ κ ℓ) (cell : σ) :
    Pool σ ρ κ ℓ :=
  match t.rest.result? with
  | some result =>
    { cell := cell
      running := s.running.pop thread
      finished := s.finished ++ [⟨t.call, s.cell, cell, result⟩] }
  | none => { s with cell := cell, running := s.running.set thread t }

/-- One event. -/
def step (program : κ → Txn σ ρ ℓ) (s : Pool σ ρ κ ℓ) : PoolEvent κ → Option (Pool σ ρ κ ℓ)
  | .start thread call =>
    if (s.running.get? thread).isSome then none
    else some { s with running := s.running.set thread ⟨call, program call, [], []⟩ }
  | .advance thread =>
    match s.running.get? thread with
    | none => none
    | some t =>
      match access s t with
      | none => none
      | some (t', cell) => some (settle s thread t' cell)

variable {s : Pool σ ρ κ ℓ} {t' t : Running σ ρ κ ℓ} {cell : σ}

variable {s' : Pool σ ρ κ ℓ} {e : PoolEvent κ}

/-- What an event of the pool does. -/
theorem step_cases (h : step program s e = some s') :
    (∃ thread call, e = .start thread call ∧ s.running.get? thread = none ∧
        s' = { s with running := s.running.set thread ⟨call, program call, [], []⟩ }) ∨
      ∃ thread t t' cell, e = .advance thread ∧ s.running.get? thread = some t ∧
        access s t = some (t', cell) ∧ s' = settle s thread t' cell := by
  cases e with
  | start thread call =>
    simp only [step] at h
    split at h
    · contradiction
    rename_i hnone
    cases h
    exact .inl ⟨thread, call, rfl, by simpa using hnone, rfl⟩
  | advance thread =>
    simp only [step] at h
    split at h
    · contradiction
    rename_i t hget
    split at h
    · contradiction
    rename_i t' cell haccess
    cases h
    exact .inr ⟨thread, t, t', cell, rfl, hget, haccess, rfl⟩

/-- What one access does. -/
theorem access_cases (h : access s t = some (t', cell)) :
    (∃ lock next, t.rest = .acquire lock next ∧ ¬s.Locked lock ∧ cell = s.cell ∧
        t' = { t with rest := next, held := lock :: t.held }) ∨
      (∃ next, t.rest = .read next ∧ cell = s.cell ∧
        t' = { t with rest := next s.cell, reads := t.reads ++ [s.cell] }) ∨
      (∃ result, t.rest = .write cell result ∧ t' = { t with rest := .done result }) ∨
      (∃ result, t.rest = .done result ∧ cell = s.cell ∧ t' = t) := by
  unfold access at h
  split at h
  · rename_i lock next hrest
    split at h
    · contradiction
    rename_i hfree
    cases h
    exact .inl ⟨lock, next, hrest, hfree, rfl, rfl⟩
  · rename_i next hrest
    cases h
    exact .inr (.inl ⟨next, hrest, rfl, rfl⟩)
  · rename_i value result hrest
    cases h
    exact .inr (.inr (.inl ⟨result, hrest, rfl⟩))
  · rename_i result hrest
    cases h
    exact .inr (.inr (.inr ⟨result, hrest, rfl, rfl⟩))

theorem access_call (h : access s t = some (t', cell)) : t'.call = t.call := by
  rcases access_cases h with ⟨_, _, _, _, _, rfl⟩ | ⟨_, _, _, rfl⟩ | ⟨_, _, rfl⟩ | ⟨_, _, _, rfl⟩
  all_goals rfl

/-- Only a write changes the cell, and a write ends its call. -/
theorem cell_eq_of_access (h : access s t = some (t', cell)) (hresult : t'.rest.result? = none) :
    cell = s.cell := by
  rcases access_cases h with ⟨_, _, _, _, hcell, _⟩ | ⟨_, _, hcell, _⟩ | ⟨_, _, rfl⟩ |
    ⟨_, _, hcell, _⟩
  · exact hcell
  · exact hcell
  · simp [Txn.result?] at hresult
  · exact hcell

omit [DecidableEq ℓ] in
@[simp]
theorem settle_cell (s : Pool σ ρ κ ℓ) (thread : Nat) (t : Running σ ρ κ ℓ) (cell : σ) :
    (settle s thread t cell).cell = cell := by
  unfold settle
  split <;> rfl

omit [DecidableEq ℓ] in
/-- The calls in flight after an access: the others, and this one unless it is over. -/
theorem settle_get? {thread other : Nat} {u : Running σ ρ κ ℓ}
    (h : (settle s thread t cell).running.get? other = some u) :
    (other = thread ∧ u = t ∧ t.rest.result? = none) ∨
      (other ≠ thread ∧ s.running.get? other = some u) := by
  unfold settle at h
  split at h
  · simp only [Dict.get?_pop] at h
    split at h
    · contradiction
    rename_i hne
    exact .inr ⟨Ne.symm hne, h⟩
  · rename_i hresult
    simp only [Dict.get?_set] at h
    split at h
    · rename_i heq
      cases h
      exact .inl ⟨heq.symm, rfl, hresult⟩
    · rename_i hne
      exact .inr ⟨Ne.symm hne, h⟩

/-! ## Coherent runs are serial -/

/-- An access that ends its call does what the whole program would do now. -/
def Coherent (program : κ → Txn σ ρ ℓ) (s : Pool σ ρ κ ℓ) : PoolEvent κ → Prop
  | .start _ _ => True
  | .advance thread =>
    ∀ t t' cell, s.running.get? thread = some t → access s t = some (t', cell) →
      t'.rest.result?.isSome → ((program t.call).exec s.cell).1 = cell

/-- A coherent step keeps the history serial. -/
theorem serial_step {start : σ}
    (h : SerialFrom program start s.finished s.cell) (hcoherent : Coherent program s e)
    (hstep : step program s e = some s') : SerialFrom program start s'.finished s'.cell := by
  rcases step_cases hstep with
    ⟨thread, call, _, _, rfl⟩ | ⟨thread, t, t', cell, rfl, hget, haccess, rfl⟩
  · exact h
  · unfold settle
    split
    · rename_i result hresult
      have hexec := hcoherent t t' cell hget haccess (by simp [hresult])
      refine h.append rfl ?_
      rw [access_call haccess]
      exact hexec
    · rename_i hresult
      rw [cell_eq_of_access haccess hresult]
      exact h

/-! ## Calls under one lock -/

section OneLock

variable (program) (lock : ℓ) (locked : κ → Prop)

/-- The locked calls in flight, whose programs start by acquiring the lock: at most one
has it, and what is left of each does what its whole program would do. -/
structure Disciplined (s : Pool σ ρ κ ℓ) : Prop where
  current : ∀ i t, s.running.get? i = some t → locked t.call →
    (program t.call).exec s.cell = t.rest.exec s.cell
  unread : ∀ i t, s.running.get? i = some t → locked t.call → t.reads = [] →
    ∀ cell, (program t.call).exec cell = t.rest.exec cell
  holds : ∀ i t, s.running.get? i = some t → locked t.call →
    t.rest = program t.call ∨ lock ∈ t.held
  exclusive : ∀ i j t u, s.running.get? i = some t → s.running.get? j = some u →
    lock ∈ t.held → lock ∈ u.held → i = j

/-- A call outside the discipline writes only while no locked call has read. -/
def Quiet (s : Pool σ ρ κ ℓ) : PoolEvent κ → Prop
  | .start _ _ => True
  | .advance thread =>
    ∀ t value result, s.running.get? thread = some t → t.rest = .write value result →
      ¬locked t.call → ∀ j u, s.running.get? j = some u → locked u.call → u.reads = []

variable {program lock locked}

omit [DecidableEq ℓ] in
theorem Disciplined.init (cell : σ) :
    Disciplined program lock locked (Pool.init cell : Pool σ ρ κ ℓ) where
  current := by simp [Pool.init]
  unread := by simp [Pool.init]
  holds := by simp [Pool.init]
  exclusive := by simp [Pool.init]

variable {t' t : Running σ ρ κ ℓ} {cell : σ} {s : Pool σ ρ κ ℓ}

/-- A locked call ends coherently. -/
theorem Disciplined.coherent (h : Disciplined program lock locked s)
    {i : Nat} (hget : s.running.get? i = some t)
    (hlocked : locked t.call) (haccess : access s t = some (t', cell))
    (hresult : t'.rest.result?.isSome) : ((program t.call).exec s.cell).1 = cell := by
  obtain ⟨result, hdone⟩ := Option.isSome_iff_exists.mp hresult
  have hrest := Txn.eq_done_of_result? hdone
  rw [h.current i t hget hlocked]
  rcases access_cases haccess with ⟨_, next, ht, _, hcell, rfl⟩ | ⟨next, ht, hcell, rfl⟩ |
    ⟨_, ht, rfl⟩ | ⟨_, ht, hcell, rfl⟩
  · simp only at hrest
    simp [ht, hrest, hcell]
  · simp only at hrest
    simp [ht, hrest, hcell]
  · simp [ht]
  · simp [ht, hcell]

/-- An access keeps what is left of its own call up to date. -/
theorem exec_access (haccess : access s t = some (t', cell)) (hresult : t'.rest.result? = none) :
    t'.rest.exec s.cell = t.rest.exec s.cell := by
  rcases access_cases haccess with ⟨_, next, ht, _, _, rfl⟩ | ⟨next, ht, _, rfl⟩ | ⟨_, _, rfl⟩ |
    ⟨_, _, _, rfl⟩
  · simp [ht]
  · simp [ht]
  · simp [Txn.result?] at hresult
  · rfl

theorem Disciplined.advance (hprogram : ∀ c, locked c → ∃ body, program c = .acquire lock body)
    (h : Disciplined program lock locked s) {thread : Nat}
    (hquiet : Quiet locked s (.advance thread))
    (hget : s.running.get? thread = some t) (haccess : access s t = some (t', cell)) :
    Disciplined program lock locked (settle s thread t' cell) := by
  have hcall := access_call haccess
  have hheld : lock ∈ t.held → lock ∈ t'.held := by
    intro hmem
    rcases access_cases haccess with ⟨_, _, _, _, _, rfl⟩ | ⟨_, _, _, rfl⟩ | ⟨_, _, rfl⟩ |
      ⟨_, _, _, rfl⟩
    · exact List.mem_cons_of_mem _ hmem
    all_goals exact hmem
  refine ⟨?_, ?_, ?_, ?_⟩
  · intro i u hu hlocked
    rw [settle_cell]
    rcases settle_get? hu with ⟨rfl, rfl, hresult⟩ | ⟨hne, hold⟩
    · rw [hcall] at hlocked ⊢
      rw [cell_eq_of_access haccess hresult, exec_access haccess hresult]
      exact h.current i t hget hlocked
    · rcases access_cases haccess with ⟨_, _, _, _, rfl, _⟩ | ⟨_, _, rfl, _⟩ | ⟨result, ht, _⟩ |
        ⟨_, _, rfl, _⟩
      · exact h.current i u hold hlocked
      · exact h.current i u hold hlocked
      · -- a write: by another locked call, or by a call outside the discipline
        by_cases htl : locked t.call
        · rcases h.holds i u hold hlocked with hfresh | hmem
          · rw [hfresh]
          · have hlock : lock ∈ t.held := by
              rcases h.holds thread t hget htl with hfresh | hmem'
              · obtain ⟨body, hbody⟩ := hprogram t.call htl
                rw [hfresh, hbody] at ht
                contradiction
              · exact hmem'
            exact absurd (h.exclusive i thread u t hold hget hmem hlock) hne
        · exact h.unread i u hold hlocked (hquiet t cell result hget ht htl i u hold hlocked) cell
      · exact h.current i u hold hlocked
  · intro i u hu hlocked hreads c
    rcases settle_get? hu with ⟨rfl, rfl, hresult⟩ | ⟨_, hold⟩
    · rw [hcall] at hlocked ⊢
      rcases access_cases haccess with ⟨_, next, ht, _, _, rfl⟩ | ⟨next, ht, _, rfl⟩ |
        ⟨_, _, rfl⟩ | ⟨_, _, _, rfl⟩
      · simpa [ht] using h.unread i t hget hlocked hreads c
      · simp at hreads
      · simp [Txn.result?] at hresult
      · exact h.unread i u hget hlocked hreads c
    · exact h.unread i u hold hlocked hreads c
  · intro i u hu hlocked
    rcases settle_get? hu with ⟨rfl, rfl, hresult⟩ | ⟨_, hold⟩
    · rw [hcall] at hlocked ⊢
      rcases h.holds i t hget hlocked with hfresh | hmem
      · obtain ⟨body, hbody⟩ := hprogram t.call hlocked
        rcases access_cases haccess with ⟨_, next, ht, _, _, rfl⟩ | ⟨next, ht, _, _⟩ |
          ⟨_, ht, _⟩ | ⟨_, _, _, rfl⟩
        · rw [hfresh, hbody] at ht
          cases ht
          exact .inr (by simp)
        · rw [hfresh, hbody] at ht
          contradiction
        · rw [hfresh, hbody] at ht
          contradiction
        · exact .inl hfresh
      · exact .inr (hheld hmem)
    · exact h.holds i u hold hlocked
  · have hsame : ∀ j u, j ≠ thread → s.running.get? j = some u → lock ∈ u.held →
        lock ∈ t'.held → False := by
      intro j u hne hu hmem hmem'
      have hother : lock ∈ t.held → False := fun ht =>
        hne (h.exclusive j thread u t hu hget hmem ht)
      rcases access_cases haccess with ⟨lock', _, _, hfree, _, rfl⟩ | ⟨_, _, _, rfl⟩ |
        ⟨_, _, rfl⟩ | ⟨_, _, _, rfl⟩
      · rcases List.mem_cons.mp hmem' with rfl | ht
        · exact hfree ⟨u, Dict.mem_values_iff.mpr ⟨j, hu⟩, hmem⟩
        · exact hother ht
      all_goals exact hother hmem'
    intro i j u v hu hv hmemu hmemv
    rcases settle_get? hu with ⟨rfl, rfl, _⟩ | ⟨hi, holdi⟩
    · rcases settle_get? hv with ⟨rfl, _, _⟩ | ⟨hj, holdj⟩
      · rfl
      · exact (hsame j v hj holdj hmemv hmemu).elim
    · rcases settle_get? hv with ⟨rfl, rfl, _⟩ | ⟨_, holdj⟩
      · exact (hsame i u hi holdi hmemu hmemv).elim
      · exact h.exclusive i j u v holdi holdj hmemu hmemv

/-- A quiet step keeps the lock discipline. -/
theorem Disciplined.step (hprogram : ∀ c, locked c → ∃ body, program c = .acquire lock body)
    {s' : Pool σ ρ κ ℓ} {e : PoolEvent κ} (h : Disciplined program lock locked s)
    (hquiet : Quiet locked s e) (hstep : step program s e = some s') :
    Disciplined program lock locked s' := by
  rcases step_cases hstep with
    ⟨thread, call, _, _, rfl⟩ | ⟨thread, t, t', cell, rfl, hget, haccess, rfl⟩
  · refine ⟨?_, ?_, ?_, ?_⟩
    · intro i t ht hlocked
      simp only [Dict.get?_set] at ht
      split at ht
      · cases ht
        rfl
      · exact h.current i t ht hlocked
    · intro i t ht hlocked hreads cell
      simp only [Dict.get?_set] at ht
      split at ht
      · cases ht
        rfl
      · exact h.unread i t ht hlocked hreads cell
    · intro i t ht hlocked
      simp only [Dict.get?_set] at ht
      split at ht
      · cases ht
        exact .inl rfl
      · exact h.holds i t ht hlocked
    · intro i j t u ht hu hmemt hmemu
      simp only [Dict.get?_set] at ht hu
      split at ht
      · cases ht
        simp at hmemt
      · split at hu
        · cases hu
          simp at hmemu
        · exact h.exclusive i j t u ht hu hmemt hmemu
  · exact h.advance hprogram hquiet hget haccess

end OneLock

end Transactions
