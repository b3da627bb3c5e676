import TinyAgentOS.Notes.SharedDocs

/-!
# What the revisions tell

Edits of one entry may interleave.  As long as an edit adds its revision only to the text that it
read, and while no other edit has still to write its own, the log tells every text of the entry and
ends with the current one.

Main results:

- `step_told`: a statement keeps the log and the texts together.
- `reproduces_of_guarded_run`: every revision is read back as it was stored.
-/

namespace TinyAgentOS.Notes

open Collections Checkpoints Transition

/-- The entry that a call has taken up: one whose first revision, or whose text, it has still to
write. -/
def Call.holds : Call → Option String
  | .insertingFirst entryId _ => some entryId
  | .updatingText entryId _ => some entryId
  | _ => none

namespace State

variable {π τ : Type} {dmp : DiffMatchPatch π τ}

/-- No edit of the entry has added its revision and not yet written its text. -/
def Settled (s : State τ) (entryId : String) : Prop :=
  ∀ id newText, s.calls.get? id ≠ some (.updatingText entryId newText)

/-- Every revision is read back as it was stored, and the last one is the current text of an entry
that no edit is writing. -/
structure Reproduces (dmp : DiffMatchPatch π τ) (s : State τ) : Prop where
  stored : ∀ entryId n row, s.revisions.get? (entryId, n) = some row →
    s.entryTextAt dmp entryId n = .ok row.written
  current : ∀ entryId n, (s.revisions.get? (entryId, n)).isSome = true →
    (∀ m, (s.revisions.get? (entryId, m)).isSome = true → m ≤ n) → s.Settled entryId →
    ∃ text, s.entries.get? entryId = some text ∧ s.entryTextAt dmp entryId n = .ok text

/-- An edit adds its revision, unless the number is taken, after the first revision of the entry,
while no other edit of it has still to write its text, and against the current text if the revision
does not hold its text whole. -/
def Unraced (s : State τ) : Event → Prop
  | .go id =>
    match s.calls.get? id with
    | some (.insertingRevision entryId oldText _ nextIndex) =>
      (s.revisions.get? (entryId, nextIndex)).isSome = true ∨
        (s.revisions.get? (entryId, 0)).isSome = true ∧ s.Settled entryId ∧
          (s.entries.get? entryId = some oldText ∨ nextIndex % checkpointEvery = 0)
    | _ => True
  | _ => True

/-! ## The log of an entry -/

/-- The revisions are numbered without gaps, and tell the texts that were stored. -/
structure Logged (dmp : DiffMatchPatch π τ) (s : State τ) : Prop where
  entry : ∀ entryId n, (s.revisions.get? (entryId, n)).isSome = true →
    (s.entries.get? entryId).isSome = true
  numbered : ∀ entryId n, (s.revisions.get? (entryId, n + 1)).isSome = true →
    (s.revisions.get? (entryId, n)).isSome = true
  first : ∀ entryId row, s.revisions.get? (entryId, 0) = some row →
    row.revision.snapshot = some row.written
  whole : ∀ entryId n row text, s.revisions.get? (entryId, n) = some row →
    row.revision.snapshot = some text → text = row.written
  change : ∀ entryId n row row', s.revisions.get? (entryId, n) = some row →
    s.revisions.get? (entryId, n + 1) = some row' → row'.revision.snapshot = none →
    ∃ diff, row'.revision.diff = some diff ∧
      applyText dmp diff row.written = some row'.written

/-- What a call that waits relies on. -/
def Fits (s : State τ) : Call → Prop
  | .insertingFirst entryId text =>
    s.entries.get? entryId = some text ∧ s.revisions.get? (entryId, 0) = none
  | .insertingRevision entryId _ _ nextIndex =>
    ∃ n, nextIndex = n + 1 ∧ (n = 0 ∨ (s.revisions.get? (entryId, n)).isSome = true)
  | .updatingText entryId newText =>
    ∃ n row, s.revisions.get? (entryId, n) = some row ∧
      s.revisions.get? (entryId, n + 1) = none ∧ row.written = newText
  | _ => True

/-- The logs and the texts go together. -/
structure Told (dmp : DiffMatchPatch π τ) (s : State τ) : Prop where
  logged : s.Logged dmp
  fits : ∀ id call, s.calls.get? id = some call → s.Fits call
  single : ∀ id id' call call' entryId, s.calls.get? id = some call →
    s.calls.get? id' = some call' → call.holds = some entryId → call'.holds = some entryId →
    id = id'
  settled : ∀ entryId n row, s.revisions.get? (entryId, n) = some row →
    s.revisions.get? (entryId, n + 1) = none → s.Settled entryId →
    s.entries.get? entryId = some row.written

section Logs

variable {s : State τ} {entryId : String} {n m : Nat}

theorem Logged.earlier (h : s.Logged dmp) (hn : (s.revisions.get? (entryId, n)).isSome = true)
    (hle : m ≤ n) : (s.revisions.get? (entryId, m)).isSome = true := by
  induction n with
  | zero =>
    rw [Nat.le_zero.mp hle]
    exact hn
  | succ n ih =>
    by_cases heq : m = n + 1
    · rw [heq]
      exact hn
    · exact ih (h.numbered entryId n hn) (by omega)

/-- Nothing is numbered after a number that is free. -/
theorem Logged.free (h : s.Logged dmp) (hn : s.revisions.get? (entryId, n) = none)
    (hle : n ≤ m) : s.revisions.get? (entryId, m) = none := by
  cases hm : s.revisions.get? (entryId, m) with
  | none => rfl
  | some row =>
    have hsome := h.earlier (Option.isSome_of_eq_some hm) hle
    rw [hn] at hsome
    contradiction

/-- A log with its numbers and its changes reads every revision back. -/
theorem Logged.entryTextAt (h : s.Logged dmp) {row : RevisionRow τ}
    (hrow : s.revisions.get? (entryId, n) = some row) :
    s.entryTextAt dmp entryId n = .ok row.written := by
  have hrows : ∀ i ≤ n, s.revisions.get? (entryId, i) =
      some ((s.revisions.get? (entryId, i)).getD row) := by
    intro i hi
    obtain ⟨r, hr⟩ := Option.isSome_iff_exists.mp (h.earlier (Option.isSome_of_eq_some hrow) hi)
    rw [hr]
    rfl
  have htells : Tells (applyText dmp)
      (fun i => ((s.revisions.get? (entryId, i)).getD row).revision)
      (fun i => ((s.revisions.get? (entryId, i)).getD row).written) n := by
    constructor
    · exact h.first entryId _ (hrows 0 (Nat.zero_le n))
    · exact fun i hi text htext => h.whole entryId i _ text (hrows i hi) htext
    · exact fun i hi hnone => h.change entryId i _ _ (hrows i hi.le) (hrows (i + 1) hi) hnone
  rw [entryTextAt_eq hrows htells, hrow]
  rfl

theorem reproduces_of_told (h : s.Told dmp) : s.Reproduces dmp := by
  constructor
  · exact fun entryId n row hrow => h.logged.entryTextAt hrow
  · intro entryId n hn hlast hsettled
    obtain ⟨row, hrow⟩ := Option.isSome_iff_exists.mp hn
    have hfree : s.revisions.get? (entryId, n + 1) = none := by
      cases hnext : s.revisions.get? (entryId, n + 1) with
      | none => rfl
      | some row' => exact absurd (hlast (n + 1) (Option.isSome_of_eq_some hnext)) (by omega)
    exact ⟨row.written, h.settled entryId n row hrow hfree hsettled,
      h.logged.entryTextAt hrow⟩

theorem told_init : (init : State τ).Told dmp := by
  constructor
  · constructor
    · intro entryId n hsome
      contradiction
    · intro entryId n hsome
      contradiction
    · intro entryId row hget
      contradiction
    · intro entryId n row text hget
      contradiction
    · intro entryId n row row' hget
      contradiction
  · intro id call hget
    contradiction
  · intro id id' call call' entryId hget
    contradiction
  · intro entryId n row hget
    contradiction

/-! ## Statements -/

variable {call : Call} {id : Nat} {newText : String}

variable {call' : Call} {id' : Nat} {text oldText : String} {s' : State τ}

theorem put_cases (h : (s.put id call).calls.get? id' = some call') :
    id' = id ∧ call' = call ∨ id' ≠ id ∧ s.calls.get? id' = some call' := by
  rcases Dict.get?_set_cases h with ⟨rfl, rfl⟩ | ⟨hne, hget⟩
  · exact Or.inl ⟨rfl, rfl⟩
  · exact Or.inr ⟨Ne.symm hne, hget⟩

/-- A call that goes on and was not writing the entry leaves it as settled as it is. -/
theorem settled_of_put (hbefore : ∀ newText, s.calls.get? id ≠ some (.updatingText entryId newText))
    (hsettled : (s.put id call).Settled entryId) : s.Settled entryId := by
  intro id' newText hget
  have hne : id ≠ id' := by
    rintro rfl
    exact hbefore newText hget
  refine hsettled id' newText ?_
  change (s.calls.set id call).get? id' = _
  rw [Dict.get?_set_of_ne _ _ hne]
  exact hget

/-- A call goes on that held no entry, and holds none now. -/
theorem Told.goOn (h : s.Told dmp)
    (hbefore : ∀ c, s.calls.get? id = some c → c.holds = none) (hfits : s.Fits call)
    (hholds : call.holds = none) : (s.put id call).Told dmp := by
  constructor
  · exact ⟨h.logged.entry, h.logged.numbered, h.logged.first, h.logged.whole, h.logged.change⟩
  · intro id' call' hget
    rcases put_cases hget with ⟨_, rfl⟩ | ⟨_, hget⟩
    · cases call' <;> exact hfits
    · have hold := h.fits id' call' hget
      cases call' <;> exact hold
  · intro i j c c' entryId hi hj hc hc'
    rcases put_cases hi with ⟨_, rfl⟩ | ⟨_, hi⟩
    · rw [hholds] at hc
      contradiction
    · rcases put_cases hj with ⟨_, rfl⟩ | ⟨_, hj⟩
      · rw [hholds] at hc'
        contradiction
      · exact h.single i j c c' entryId hi hj hc hc'
  · intro entryId n row hrow hfree hsettled
    refine h.settled entryId n row hrow hfree (settled_of_put ?_ hsettled)
    intro newText hget
    have hnone := hbefore _ hget
    contradiction

/-- A call that holds an entry holds one that is there. -/
theorem Told.entry_of_holds (h : s.Told dmp)
    (hget : s.calls.get? id = some call) (hholds : call.holds = some entryId) :
    (s.entries.get? entryId).isSome = true := by
  have hfits := h.fits id call hget
  cases call with
  | insertingFirst e text =>
    obtain rfl := Option.some.inj hholds
    rw [hfits.1]
    rfl
  | updatingText e newText =>
    obtain rfl := Option.some.inj hholds
    obtain ⟨n, row, hrow, _⟩ := hfits
    exact h.logged.entry e n (Option.isSome_of_eq_some hrow)
  | _ => contradiction

/-- `INSERT INTO shared_doc_entries`. -/
theorem Told.insertEntry (h : s.Told dmp)
    (hcall : s.calls.get? id = some (.insertingEntry entryId text))
    (hnew : s.entries.get? entryId = none) :
    ({ s with entries := s.entries.set entryId text }.put id
      (.insertingFirst entryId text)).Told dmp := by
  have hnone : ∀ n, s.revisions.get? (entryId, n) = none := by
    intro n
    cases hrow : s.revisions.get? (entryId, n) with
    | none => rfl
    | some row =>
      have hentry := h.logged.entry entryId n (Option.isSome_of_eq_some hrow)
      rw [hnew] at hentry
      contradiction
  have hother : ∀ e, (s.entries.get? e).isSome = true →
      (s.entries.set entryId text).get? e = s.entries.get? e := by
    intro e he
    refine Dict.get?_set_of_ne _ _ ?_
    rintro rfl
    rw [hnew] at he
    contradiction
  constructor
  · refine ⟨?_, h.logged.numbered, h.logged.first, h.logged.whole, h.logged.change⟩
    intro e n hn
    have hentry := h.logged.entry e n hn
    change ((s.entries.set entryId text).get? e).isSome = true
    rw [hother e hentry]
    exact hentry
  · intro id' call' hget
    rcases put_cases hget with ⟨_, rfl⟩ | ⟨_, hget⟩
    · exact ⟨Dict.get?_set_self _ _ _, hnone 0⟩
    · have hold := h.fits id' call' hget
      cases call' with
      | insertingFirst e text' =>
        refine ⟨?_, hold.2⟩
        change (s.entries.set entryId text).get? e = some text'
        rw [hother e (Option.isSome_of_eq_some hold.1)]
        exact hold.1
      | _ => exact hold
  · intro i j c c' e hi hj hc hc'
    have hfree : ∀ k call, s.calls.get? k = some call → call.holds = some entryId → False := by
      intro k call hget hholds
      have hentry := h.entry_of_holds hget hholds
      rw [hnew] at hentry
      contradiction
    rcases put_cases hi with ⟨rfl, rfl⟩ | ⟨_, hi⟩
    · rcases put_cases hj with ⟨rfl, _⟩ | ⟨_, hj⟩
      · rfl
      · obtain rfl := Option.some.inj hc
        exact (hfree j c' hj hc').elim
    · rcases put_cases hj with ⟨_, rfl⟩ | ⟨_, hj⟩
      · obtain rfl := Option.some.inj hc'
        exact (hfree i c hi hc).elim
      · exact h.single i j c c' e hi hj hc hc'
  · intro e n row hrow hfree hsettled
    have hbefore : ∀ newText, s.calls.get? id ≠ some (.updatingText e newText) := by
      intro newText hget
      rw [hcall] at hget
      cases hget
    change (s.entries.set entryId text).get? e = some row.written
    rw [hother e (h.logged.entry e n (Option.isSome_of_eq_some hrow))]
    exact h.settled e n row hrow hfree (settled_of_put hbefore hsettled)

/-- A revision is added under the number after the last, or as the first one. -/
theorem Logged.add (h : s.Logged dmp) (i : Nat) (row : RevisionRow τ)
    (hentry : (s.entries.get? entryId).isSome = true) (hfree : s.revisions.get? (entryId, i) = none)
    (hprev : ∀ m, i = m + 1 → (s.revisions.get? (entryId, m)).isSome = true)
    (hfirst : i = 0 → row.revision.snapshot = some row.written)
    (hwhole : ∀ text, row.revision.snapshot = some text → text = row.written)
    (hchange : ∀ m prev, i = m + 1 → s.revisions.get? (entryId, m) = some prev →
      row.revision.snapshot = none → ∃ diff, row.revision.diff = some diff ∧
        applyText dmp diff prev.written = some row.written) :
    ({ s with revisions := s.revisions.set (entryId, i) row } : State τ).Logged dmp := by
  have hcases : ∀ {e n r}, (s.revisions.set (entryId, i) row).get? (e, n) = some r →
      (e = entryId ∧ n = i ∧ r = row) ∨ s.revisions.get? (e, n) = some r := by
    intro e n r hget
    rcases Dict.get?_set_cases hget with ⟨hkey, rfl⟩ | ⟨_, hold⟩
    · obtain ⟨rfl, rfl⟩ := Prod.mk.inj hkey
      exact Or.inl ⟨rfl, rfl, rfl⟩
    · exact Or.inr hold
  have hmono : ∀ {e n}, (s.revisions.get? (e, n)).isSome = true →
      ((s.revisions.set (entryId, i) row).get? (e, n)).isSome = true := by
    intro e n hsome
    rw [Dict.get?_set]
    split
    · rfl
    · exact hsome
  constructor
  · intro e n hsome
    obtain ⟨r, hget⟩ := Option.isSome_iff_exists.mp hsome
    rcases hcases hget with ⟨rfl, _, _⟩ | hold
    · exact hentry
    · exact h.entry e n (Option.isSome_of_eq_some hold)
  · intro e n hsome
    obtain ⟨r, hget⟩ := Option.isSome_iff_exists.mp hsome
    rcases hcases hget with ⟨rfl, hi, _⟩ | hold
    · exact hmono (hprev n hi.symm)
    · exact hmono (h.numbered e n (Option.isSome_of_eq_some hold))
  · intro e r hget
    rcases hcases hget with ⟨_, hi, rfl⟩ | hold
    · exact hfirst hi.symm
    · exact h.first e r hold
  · intro e n r text hget htext
    rcases hcases hget with ⟨_, _, rfl⟩ | hold
    · exact hwhole text htext
    · exact h.whole e n r text hold htext
  · intro e n r r' hget hget' hnone
    rcases hcases hget' with ⟨rfl, hi', rfl⟩ | hold'
    · rcases hcases hget with ⟨_, hi, _⟩ | hold
      · omega
      · exact hchange n r hi'.symm hold hnone
    · rcases hcases hget with ⟨rfl, rfl, _⟩ | hold
      · rw [h.free hfree (Nat.le_succ n)] at hold'
        contradiction
      · exact h.change e n r r' hold hold' hnone

/-- Calls that stay rely on what they relied on, if the new revision is of an entry they do not
hold. -/
theorem Fits.add (hfits : s.Fits call) (i : Nat) (row : RevisionRow τ)
    (hholds : call.holds ≠ some entryId) :
    ({ s with revisions := s.revisions.set (entryId, i) row } : State τ).Fits call := by
  have hother : ∀ e n, some e ≠ some entryId →
      (s.revisions.set (entryId, i) row).get? (e, n) = s.revisions.get? (e, n) := by
    intro e n hne
    refine Dict.get?_set_of_ne _ _ fun hkey => hne ?_
    rw [(Prod.mk.inj hkey).1]
  cases call with
  | insertingFirst e text => exact ⟨hfits.1, (hother e 0 hholds).trans hfits.2⟩
  | insertingRevision e oldText newText nextIndex =>
    obtain ⟨n, hnext, hn⟩ := hfits
    refine ⟨n, hnext, hn.imp_right fun hsome => ?_⟩
    change ((s.revisions.set (entryId, i) row).get? (e, n)).isSome = true
    rw [Dict.get?_set]
    split
    · rfl
    · exact hsome
  | updatingText e newText =>
    obtain ⟨n, r, hget, hfree, hwritten⟩ := hfits
    exact ⟨n, r, (hother e n hholds).trans hget, (hother e (n + 1) hholds).trans hfree, hwritten⟩
  | _ => trivial

/-- The calls beside one that holds an entry hold others. -/
theorem Told.holds_ne (h : s.Told dmp)
    (hget : s.calls.get? id = some call) (hholds : call.holds = some entryId)
    (hget' : s.calls.get? id' = some call') (hne : id' ≠ id) : call'.holds ≠ some entryId :=
  fun hholds' => hne (h.single id' id call' call entryId hget' hget hholds' hholds)

/-- A call that held an entry returns. -/
theorem Told.single_returned (h : s.Told dmp) :
    ∀ i j c c' e, (s.put id .returned).calls.get? i = some c →
      (s.put id .returned).calls.get? j = some c' → c.holds = some e → c'.holds = some e →
      i = j := by
  intro i j c c' e hi hj hc hc'
  rcases put_cases hi with ⟨_, rfl⟩ | ⟨_, hi⟩
  · contradiction
  · rcases put_cases hj with ⟨_, rfl⟩ | ⟨_, hj⟩
    · contradiction
    · exact h.single i j c c' e hi hj hc hc'

/-- The first revision holds the text that the entry was added with. -/
theorem Told.insertFirst (h : s.Told dmp)
    (hcall : s.calls.get? id = some (.insertingFirst entryId text)) :
    ({ s with revisions := s.revisions.set (entryId, 0) (firstRow text) }.put id
      .returned).Told dmp := by
  obtain ⟨hentry, hfree⟩ := h.fits id _ hcall
  have hlogged := h.logged.add 0 (firstRow text) (Option.isSome_of_eq_some hentry)
    hfree (fun m hm => absurd hm (by omega)) (fun _ => rfl)
    (fun t ht => (Option.some.inj ht).symm) (fun m prev hm => absurd hm (by omega))
  constructor
  · exact ⟨hlogged.entry, hlogged.numbered, hlogged.first, hlogged.whole, hlogged.change⟩
  · intro id' call' hget
    rcases put_cases hget with ⟨_, rfl⟩ | ⟨hne, hget⟩
    · trivial
    · have hfits := (h.fits id' call' hget).add 0 (firstRow text)
        (h.holds_ne hcall rfl hget hne)
      cases call' <;> exact hfits
  · exact h.single_returned
  · intro e n row hrow hnext hsettled
    have hbefore : ∀ newText, s.calls.get? id ≠ some (.updatingText e newText) := by
      intro newText hget
      rw [hcall] at hget
      cases hget
    have hsettled' : s.Settled e := settled_of_put hbefore hsettled
    rcases Dict.get?_set_cases hrow with ⟨hkey, rfl⟩ | ⟨hkey, hold⟩
    · obtain ⟨rfl, rfl⟩ := Prod.mk.inj hkey
      exact hentry
    · refine h.settled e n row hold ?_ hsettled'
      rw [← hnext]
      refine (Dict.get?_set_of_ne _ _ ?_).symm
      exact fun hkey' => absurd (Prod.mk.inj hkey').2 (by omega)

/-- An edit adds its revision to the text that it read. -/
theorem Told.insertRevision (h : s.Told dmp) (hdmp : dmp.Lawful) {nextIndex : Nat}
    (hcall : s.calls.get? id = some (.insertingRevision entryId oldText newText nextIndex))
    (hfree : s.revisions.get? (entryId, nextIndex) = none)
    (hfirst : (s.revisions.get? (entryId, 0)).isSome = true) (hsettled : s.Settled entryId)
    (hread : s.entries.get? entryId = some oldText ∨ nextIndex % checkpointEvery = 0) : ({ s with
        revisions := s.revisions.set (entryId, nextIndex)
          (editRow dmp oldText newText nextIndex) }.put id
      (.updatingText entryId newText)).Told dmp := by
  obtain ⟨n, rfl, hn⟩ := h.fits id _ hcall
  have hprev : (s.revisions.get? (entryId, n)).isSome = true := by
    rcases hn with rfl | hn
    · exact hfirst
    · exact hn
  obtain ⟨prev, hprev⟩ := Option.isSome_iff_exists.mp hprev
  have htext := h.settled entryId n prev hprev hfree hsettled
  have hlogged := h.logged.add (n + 1) (editRow dmp oldText newText (n + 1))
    (Option.isSome_of_eq_some htext) hfree
    (fun m hm => by
      obtain rfl : n = m := by omega
      exact Option.isSome_of_eq_some hprev)
    (fun hzero => absurd hzero (by omega))
    (fun t ht => by
      simp only [editRow] at ht
      split at ht
      · exact (Option.some.inj ht).symm
      · contradiction)
    (fun m row hm hrow hnone => by
      obtain rfl : n = m := by omega
      rw [hprev] at hrow
      cases hrow
      refine ⟨_, rfl, ?_⟩
      -- Without a checkpoint the text that was read is the one that the last revision stored.
      have hcheckpoint : ¬ (n + 1) % checkpointEvery = 0 := by
        intro hzero
        simp only [editRow, if_pos hzero] at hnone
        contradiction
      rw [hread.resolve_right hcheckpoint] at htext
      rw [← Option.some.inj htext]
      exact applyText_toText hdmp oldText newText)
  have hholds : ∀ id' call', s.calls.get? id' = some call' → call'.holds ≠ some entryId := by
    intro id' call' hget hholds
    have hfits := h.fits id' call' hget
    cases call' with
    | insertingFirst e text =>
      obtain rfl := Option.some.inj hholds
      rw [hfits.2] at hfirst
      contradiction
    | updatingText e text =>
      obtain rfl := Option.some.inj hholds
      exact hsettled id' text hget
    | _ => contradiction
  constructor
  · exact ⟨hlogged.entry, hlogged.numbered, hlogged.first, hlogged.whole, hlogged.change⟩
  · intro id' call' hget
    rcases put_cases hget with ⟨_, rfl⟩ | ⟨_, hget⟩
    · refine ⟨n + 1, editRow dmp oldText newText (n + 1), Dict.get?_set_self _ _ _, ?_, rfl⟩
      refine (Dict.get?_set_of_ne _ _ ?_).trans (h.logged.free hfree (Nat.le_succ _))
      exact fun hkey => absurd (Prod.mk.inj hkey).2 (by omega)
    · have hfits := (h.fits id' call' hget).add (n + 1)
        (editRow dmp oldText newText (n + 1)) (hholds id' call' hget)
      cases call' <;> exact hfits
  · intro i j c c' e hi hj hc hc'
    rcases put_cases hi with ⟨rfl, rfl⟩ | ⟨_, hi⟩
    · rcases put_cases hj with ⟨rfl, _⟩ | ⟨_, hj⟩
      · rfl
      · obtain rfl := Option.some.inj hc
        exact absurd hc' (hholds j c' hj)
    · rcases put_cases hj with ⟨_, rfl⟩ | ⟨_, hj⟩
      · obtain rfl := Option.some.inj hc'
        exact absurd hc (hholds i c hi)
      · exact h.single i j c c' e hi hj hc hc'
  · intro e m row hrow hnext hsettled'
    have hne : e ≠ entryId := by
      rintro rfl
      exact hsettled' id newText (Dict.get?_set_self _ _ _)
    have hother : ∀ k, (s.revisions.set (entryId, n + 1)
        (editRow dmp oldText newText (n + 1))).get? (e, k) = s.revisions.get? (e, k) :=
      fun k => Dict.get?_set_of_ne _ _ fun hkey => hne (Prod.mk.inj hkey).1.symm
    have hbefore : ∀ text, s.calls.get? id ≠ some (.updatingText e text) := by
      intro text hget
      rw [hcall] at hget
      cases hget
    exact h.settled e m row ((hother m).symm.trans hrow) ((hother (m + 1)).symm.trans hnext)
      (settled_of_put hbefore hsettled')

/-- The text that the last revision stored is written. -/
theorem Told.updateText (h : s.Told dmp)
    (hcall : s.calls.get? id = some (.updatingText entryId newText)) :
    ({ s with entries := s.entries.modify entryId fun _ => newText }.put id
      .returned).Told dmp := by
  obtain ⟨n, last, hlast, hfree, rfl⟩ := h.fits id _ hcall
  have hother : ∀ e, e ≠ entryId →
      (s.entries.modify entryId fun _ => last.written).get? e = s.entries.get? e := by
    intro e hne
    rw [Dict.get?_modify, if_neg hne.symm]
  constructor
  · refine ⟨?_, h.logged.numbered, h.logged.first, h.logged.whole, h.logged.change⟩
    intro e m hsome
    have hentry := h.logged.entry e m hsome
    change ((s.entries.modify entryId fun _ => last.written).get? e).isSome = true
    rw [Dict.get?_modify]
    split
    · rw [Option.isSome_map]
      exact hentry
    · exact hentry
  · intro id' call' hget
    rcases put_cases hget with ⟨_, rfl⟩ | ⟨hne, hget⟩
    · trivial
    · have hfits := h.fits id' call' hget
      have hholds := h.holds_ne hcall rfl hget hne
      cases call' with
      | insertingFirst e text =>
        refine ⟨(hother e ?_).trans hfits.1, hfits.2⟩
        rintro rfl
        exact hholds rfl
      | _ => exact hfits
  · exact h.single_returned
  · intro e m row hrow hnext hsettled
    change s.revisions.get? (e, m) = some row at hrow
    change s.revisions.get? (e, m + 1) = none at hnext
    by_cases he : e = entryId
    · subst he
      have hm : m = n := by
        by_contra hne
        rcases Nat.lt_or_gt_of_ne hne with hlt | hlt
        · have hsome := h.logged.earlier (Option.isSome_of_eq_some hlast) hlt
          rw [hnext] at hsome
          contradiction
        · rw [h.logged.free hfree hlt] at hrow
          contradiction
      subst hm
      rw [hlast] at hrow
      cases hrow
      have hentry := h.logged.entry e m (Option.isSome_of_eq_some hlast)
      obtain ⟨text, htext⟩ := Option.isSome_iff_exists.mp hentry
      change (s.entries.modify e fun _ => last.written).get? e = some last.written
      rw [Dict.get?_modify, if_pos rfl, htext]
      rfl
    · have hbefore : ∀ text, s.calls.get? id ≠ some (.updatingText e text) := by
        intro text hget
        rw [hcall] at hget
        cases hget
        exact he rfl
      exact (hother e he).trans
        (h.settled e m row hrow hnext (settled_of_put hbefore hsettled))

/-- The number that an edit reads comes after one that is taken, or is the first. -/
theorem fits_readingIndex : s.Fits (.insertingRevision entryId oldText newText
      ((s.maxRevIndex entryId).getD 0 + 1)) := by
  refine ⟨(s.maxRevIndex entryId).getD 0, rfl, ?_⟩
  unfold maxRevIndex
  cases hmax : ((s.revisions.keys.filter fun key => key.1 = entryId).map Prod.snd).max? with
  | none => exact Or.inl rfl
  | some n =>
    obtain ⟨key, hkey, rfl⟩ := List.mem_map.mp (List.max?_mem hmax)
    obtain ⟨hmem, hentry⟩ := List.mem_filter.mp hkey
    obtain ⟨row, hrow⟩ := Dict.mem_keys_iff.mp hmem
    rw [← of_decide_eq_true hentry]
    exact Or.inr (Option.isSome_of_eq_some hrow)

theorem holds_of_get? (hcall : s.calls.get? id = some call)
    (hholds : call.holds = none) : ∀ c, s.calls.get? id = some c → c.holds = none := by
  intro c hget
  rw [hcall] at hget
  cases hget
  exact hholds

theorem exec_told (h : s.Told dmp) (hdmp : dmp.Lawful)
    (hcall : s.calls.get? id = some call) (hguard : s.Unraced (.go id))
    (hexec : s.exec dmp id call = some s') : s'.Told dmp := by
  cases call with
  | insertingEntry entryId text =>
    obtain rfl := Option.some.inj hexec
    split
    · exact h.goOn (holds_of_get? hcall rfl) trivial rfl
    · rename_i hnew
      exact h.insertEntry hcall (Option.not_isSome_iff_eq_none.mp hnew)
  | insertingFirst entryId text =>
    obtain rfl := Option.some.inj hexec
    unfold State.insertRevision
    rw [(h.fits id _ hcall).2]
    exact h.insertFirst hcall
  | readingText entryId newText =>
    simp only [exec] at hexec
    split at hexec
    · obtain rfl := Option.some.inj hexec
      exact h.goOn (holds_of_get? hcall rfl) trivial rfl
    · obtain rfl := Option.some.inj hexec
      exact h.goOn (holds_of_get? hcall rfl) trivial rfl
  | readingIndex entryId oldText newText =>
    obtain rfl := Option.some.inj hexec
    exact h.goOn (holds_of_get? hcall rfl) fits_readingIndex rfl
  | insertingRevision entryId oldText newText nextIndex =>
    obtain rfl := Option.some.inj hexec
    simp only [Unraced, hcall] at hguard
    unfold State.insertRevision
    split
    · exact h.goOn (holds_of_get? hcall rfl) trivial rfl
    · rename_i hfree
      obtain ⟨hfirst, hsettled, hread⟩ := hguard.resolve_left hfree
      exact h.insertRevision hdmp hcall (Option.not_isSome_iff_eq_none.mp hfree) hfirst hsettled
        hread
  | updatingText entryId newText =>
    obtain rfl := Option.some.inj hexec
    exact h.updateText hcall
  | returned | failed => contradiction

/-- A statement keeps the logs and the texts together, if no other edit comes between. -/
theorem step_told (h : s.Told dmp) (hdmp : dmp.Lawful) {e : Event}
    (hguard : s.Unraced e) (hstep : s.step dmp e = some s') : s'.Told dmp := by
  have hnew : ∀ id, ¬ (s.calls.get? id).isSome = true →
      ∀ c, s.calls.get? id = some c → c.holds = none := by
    intro id hnone c hget
    rw [hget] at hnone
    exact absurd rfl hnone
  cases e with
  | addEntry id entryId text | editEntry id entryId newText =>
    simp only [step] at hstep
    split at hstep
    · contradiction
    rename_i hnone
    obtain rfl := Option.some.inj hstep
    exact h.goOn (hnew id hnone) trivial rfl
  | go id =>
    obtain ⟨call, hcall, hexec⟩ := Option.bind_eq_some_iff.mp hstep
    exact exec_told h hdmp hcall hguard hexec

/-- Where no edit comes between the reading and the writing of another one, every revision is read
back as it was stored and the last one is the current text. -/
theorem reproduces_of_guarded_run (hdmp : dmp.Lawful) {events : List Event}
    (hguard : Guarded (step dmp) Unraced init events) (hrun : run (step dmp) init events = some s) :
    s.Reproduces dmp :=
  reproduces_of_told (invariant_of_guarded_run
    (fun _ _ _ h hguard hstep => step_told h hdmp hguard hstep) told_init hguard hrun)

end Logs

/-! ## Two edits -/

/-- Patches that replace a text as a whole. -/
def wholeTexts : DiffMatchPatch (String × String) (String × String) :=
  { patchMake := fun old new => (old, new)
    patchToText := id
    patchFromText := id
    patchApply := fun patch text => if text = patch.1 then (patch.2, true) else (text, false) }

theorem lawful_wholeTexts : wholeTexts.Lawful :=
  ⟨fun _ _ => if_pos rfl, fun _ _ => rfl⟩

/-- An entry is added and edited. -/
def edited : List Event :=
  [.addEntry 0 "e1" "milk", .go 0, .go 0, .editEntry 1 "e1" "milk, eggs", .go 1, .go 1, .go 1,
    .go 1]

theorem guarded_edited : Guarded (step wholeTexts) Unraced init edited := by
  refine ⟨trivial, trivial, trivial, trivial, trivial, trivial, ?_, trivial, trivial⟩
  refine Or.inr ⟨rfl, ?_, Or.inl rfl⟩
  intro id newText hget
  have hentry : (id, Call.updatingText "e1" newText) ∈
      [(0, Call.returned), (1, Call.insertingRevision "e1" "milk" "milk, eggs" 1)] :=
    Dict.mem_entries_iff.mpr hget
  simp at hentry

theorem reproduces_edited :
    ∃ s, run (step wholeTexts) init edited = some s ∧
      s.entries.get? "e1" = some "milk, eggs" ∧ s.Reproduces wholeTexts :=
  ⟨_, rfl, rfl, reproduces_of_guarded_run lawful_wholeTexts guarded_edited rfl⟩

/-- An edit reads the text and adds its revision after another one has added its own and before
that one writes its text. -/
def overtaken : List Event :=
  [.addEntry 0 "e1" "milk", .go 0, .go 0, .editEntry 1 "e1" "milk, eggs", .go 1, .go 1, .go 1,
    .editEntry 2 "e1" "milk, bread", .go 2, .go 2, .go 2, .go 2, .go 1]

/-- The current text is that of the first revision, and the last one is the second. -/
theorem not_reproduces_overtaken :
    ∃ s, run (step wholeTexts) init overtaken = some s ∧
      s.entries.get? "e1" = some "milk, eggs" ∧
      (∃ row, s.revisions.get? ("e1", 2) = some row ∧ row.written = "milk, bread") ∧
      ¬ s.Reproduces wholeTexts := by
  refine ⟨_, rfl, rfl, ⟨_, rfl, rfl⟩, ?_⟩
  intro h
  have hread := h.stored "e1" 2 _ rfl
  cases hread

end State

end TinyAgentOS.Notes
