import TinyAgentOS.Trace.TraceStore

/-!
# Listings of a trace

Every recorded envelope stays in a file of its hour, and a listing leaves out only rows that
enough of the rows it has read are as new as.

Main results:

- `TraceHistory.sound_after`: the files hold recorded envelopes, each in its hour, and a file
  holds every one of them.
- `TraceHistory.list_isNewest`: a listing is the newest of the recorded envelopes that match.
-/

namespace TinyAgentOS.Trace

open Collections Newest

/-! ## What the calls do to the files -/

namespace TraceStore

/-- A database has each id once, and no connection is to a database that is not there. -/
structure Tidy (s : TraceStore) : Prop where
  once : ∀ b, ((s.visible b).map Envelope.id).Nodup
  connected : ∀ b, (s.connections.get? b).isSome → (s.dbs.get? b).isSome

/-- Nothing that is committed or appended gets lost, and what is new is among the given. -/
structure Goes (new : Bucket → Envelope → Prop) (s s' : TraceStore) : Prop where
  tidy : s'.Tidy
  rows : ∀ b, ∀ e ∈ s.rows b, e ∈ s'.rows b
  fallback : ∀ b, ∀ e ∈ lines s.fallback b, e ∈ lines s'.fallback b
  late : ∀ b, ∀ e ∈ lines s.late b, e ∈ lines s'.late b
  newVisible : ∀ b, ∀ e ∈ s'.visible b, e ∈ s.visible b ∨ new b e
  newFallback : ∀ b, ∀ e ∈ lines s'.fallback b, e ∈ lines s.fallback b ∨ new b e
  newLate : ∀ b, ∀ e ∈ lines s'.late b, e ∈ lines s.late b ∨ new b e

variable {s s' t : TraceStore} {b : Bucket} {e : Envelope} {new : Bucket → Envelope → Prop}

/-- A store goes to itself. -/
theorem Goes.refl (h : s.Tidy) : Goes new s s where
  tidy := h
  rows := fun _ _ => id
  fallback := fun _ _ => id
  late := fun _ _ => id
  newVisible := fun _ _ => Or.inl
  newFallback := fun _ _ => Or.inl
  newLate := fun _ _ => Or.inl

/-- Stretches follow on one another. -/
theorem Goes.trans (h : Goes new s s') (h' : Goes new s' t) : Goes new s t where
  tidy := h'.tidy
  rows := fun b e he => h'.rows b e (h.rows b e he)
  fallback := fun b e he => h'.fallback b e (h.fallback b e he)
  late := fun b e he => h'.late b e (h.late b e he)
  newVisible := fun b e he => (h'.newVisible b e he).elim (h.newVisible b e) Or.inr
  newFallback := fun b e he => (h'.newFallback b e he).elim (h.newFallback b e) Or.inr
  newLate := fun b e he => (h'.newLate b e he).elim (h.newLate b e) Or.inr

/-- The lines stay, and so do the rows; a connection may see fewer of them. -/
theorem Goes.of_rows (h : s.Tidy) (hrows : ∀ b, s'.rows b = s.rows b)
    (hfallback : s'.fallback = s.fallback) (hlate : s'.late = s.late)
    (hvisible : ∀ b, (s'.visible b).Sublist (s.visible b))
    (hconnected : ∀ b, (s'.connections.get? b).isSome → (s'.dbs.get? b).isSome) :
    Goes new s s' where
  tidy := ⟨fun b => (h.once b).sublist ((hvisible b).map _), hconnected⟩
  rows := fun b e he => by rwa [hrows]
  fallback := fun b e he => by rwa [hfallback]
  late := fun b e he => by rwa [hlate]
  newVisible := fun b e he => Or.inl ((hvisible b).subset he)
  newFallback := fun b e he => Or.inl (by rwa [hfallback] at he)
  newLate := fun b e he => Or.inl (by rwa [hlate] at he)

/-- Creating a database leaves those that exist alone. -/
theorem dbs_createDb (s : TraceStore) (b c : Bucket) :
    (s.createDb b).dbs.get? c = if b = c then some ((s.dbs.get? c).getD ⟨[], false⟩) else
      s.dbs.get? c := by
  unfold createDb
  split
  · rename_i hsome
    split
    · rename_i heq
      obtain ⟨db, hdb⟩ := Option.isSome_iff_exists.mp hsome
      rw [← heq, hdb]
      rfl
    · rfl
  · rename_i hnone
    simp only [Dict.get?_set]
    split
    · rename_i heq
      rw [← heq, Option.not_isSome_iff_eq_none.mp hnone]
      rfl
    · rfl

/-- A created database has no rows. -/
theorem rows_createDb (s : TraceStore) (b c : Bucket) : (s.createDb b).rows c = s.rows c := by
  rw [rows, rows, dbs_createDb]
  split
  · cases s.dbs.get? c <;> rfl
  · rfl

variable {c : Bucket}

/-- A created database is there, and the others stay. -/
theorem isSome_createDb (b : Bucket) (h : b = c ∨ (s.dbs.get? c).isSome) :
    ((s.createDb b).dbs.get? c).isSome := by
  rw [dbs_createDb]
  split
  · rfl
  · exact h.resolve_left ‹_›

/-- Creating a database changes the databases only. -/
theorem createDb_eq (s : TraceStore) (b : Bucket) :
    s.createDb b = { s with dbs := (s.createDb b).dbs } := by
  unfold createDb
  split <;> rfl

/-- Creating a database loses nothing. -/
theorem goes_createDb (h : s.Tidy) (b : Bucket) : Goes new s (s.createDb b) := by
  rw [createDb_eq]
  refine .of_rows h (rows_createDb s b) rfl rfl (fun c => ?_) fun c hc => ?_
  · change List.Sublist ((s.createDb b).rows c ++ s.pending c) (s.rows c ++ s.pending c)
    rw [rows_createDb]
  · exact isSome_createDb b (Or.inr (h.connected c hc))

/-- Opening a bucket creates its database and connects to it. -/
theorem openBucket_eq (h : s.connections.get? b = none) :
    s.openBucket b =
      { s with dbs := (s.createDb b).dbs, connections := s.connections.set b [] } := by
  rw [openBucket, if_neg (by rw [h]; exact Bool.false_ne_true), createDb_eq]

/-- An opened bucket shows what it showed. -/
theorem visible_openBucket (s : TraceStore) (b c : Bucket) :
    (s.openBucket b).visible c = s.visible c := by
  cases hget : s.connections.get? b with
  | some rows => rw [openBucket, if_pos (by rw [hget]; rfl)]
  | none =>
    have hpending : (s.openBucket b).pending c = s.pending c := by
      rw [openBucket_eq hget, pending, pending, Dict.get?_set]
      split
      · rename_i heq
        rw [← heq, hget]
        rfl
      · rfl
    have hrows : (s.openBucket b).rows c = s.rows c := by
      rw [openBucket_eq hget]
      exact rows_createDb s b c
    rw [visible, visible, hpending, hrows]

/-- Opening a bucket loses nothing. -/
theorem goes_openBucket (h : s.Tidy) (b : Bucket) : Goes new s (s.openBucket b) := by
  cases hget : s.connections.get? b with
  | some rows =>
    rw [openBucket, if_pos (by rw [hget]; rfl)]
    exact .refl h
  | none =>
    have hvisible := visible_openBucket s b
    rw [openBucket_eq hget] at hvisible ⊢
    refine .of_rows h (rows_createDb s b) rfl rfl (fun c => ?_) fun c hc => ?_
    · rw [hvisible]
    · rw [Dict.get?_set] at hc
      split at hc
      · exact isSome_createDb b (Or.inl ‹_›)
      · exact isSome_createDb b (Or.inr (h.connected c hc))

/-- An opened bucket is connected. -/
theorem isSome_openBucket (s : TraceStore) (b : Bucket) :
    ((s.openBucket b).connections.get? b).isSome := by
  unfold openBucket
  split
  · assumption
  · rw [Dict.get?_set_self]
    rfl

/-- An insert shows its envelope, unless the id is taken. -/
theorem visible_execute (s : TraceStore) (b : Bucket) (e : Envelope) (c : Bucket) :
    (s.execute b e).visible c =
      if b = c ∧ e.id ∉ (s.visible b).map Envelope.id then s.visible c ++ [e] else s.visible c := by
  unfold execute
  split
  · rename_i hmem
    rw [if_neg fun h => h.2 hmem]
  · rename_i hnot
    by_cases hc : b = c
    · subst hc
      rw [if_pos ⟨rfl, hnot⟩]
      simp only [visible, pending, Dict.get?_set_self, Option.getD_some, List.append_assoc]
      rfl
    · rw [if_neg fun h => hc h.1]
      simp only [visible, pending, Dict.get?_set_of_ne _ _ hc]
      rfl

/-- An insert loses nothing. -/
theorem goes_execute (h : s.Tidy) (hconnected : (s.connections.get? b).isSome) (hnew : new b e) :
    Goes new s (s.execute b e) where
  tidy := by
    constructor
    · intro c
      rw [visible_execute]
      split
      · rename_i hfresh
        obtain ⟨rfl, hfresh⟩ := hfresh
        rw [List.map_append, List.nodup_append]
        refine ⟨h.once b, List.nodup_singleton _, ?_⟩
        rintro x hx _ hy rfl
        exact hfresh (List.mem_singleton.mp hy ▸ hx)
      · exact h.once c
    · intro c hc
      unfold execute at hc ⊢
      split at hc
      · rw [if_pos ‹_›]
        exact h.connected c hc
      · rw [if_neg ‹_›]
        rw [Dict.get?_set] at hc
        split at hc
        · exact ‹b = c› ▸ h.connected b hconnected
        · exact h.connected c hc
  rows := fun c x hx => by unfold execute; split <;> exact hx
  fallback := fun c x hx => by unfold execute; split <;> exact hx
  late := fun c x hx => by unfold execute; split <;> exact hx
  newVisible := by
    intro c x hx
    rw [visible_execute] at hx
    split at hx
    · rename_i hfresh
      rcases List.mem_append.mp hx with hold | hadded
      · exact Or.inl hold
      · rw [List.mem_singleton.mp hadded, ← hfresh.1]
        exact Or.inr hnew
    · exact Or.inl hx
  newFallback := fun c x hx => Or.inl (by unfold execute at hx; split at hx <;> exact hx)
  newLate := fun c x hx => Or.inl (by unfold execute at hx; split at hx <;> exact hx)

/-- A commit makes rows of what its connection shows. -/
theorem rows_commit (hdb : (s.dbs.get? b).isSome) (c : Bucket) :
    (s.commit b).rows c = if b = c then s.visible b else s.rows c := by
  obtain ⟨db, hdb⟩ := Option.isSome_iff_exists.mp hdb
  rw [rows, commit, Dict.get?_modify]
  split
  · rename_i heq
    rw [← heq, hdb]
    rfl
  · rfl

/-- A commit loses nothing. -/
theorem goes_commit (h : s.Tidy) (hconnected : (s.connections.get? b).isSome) :
    Goes new s (s.commit b) := by
  have hdb := h.connected b hconnected
  have hvisible : ∀ c, (s.commit b).visible c = s.visible c := by
    intro c
    have hpending : (s.commit b).pending c = if b = c then [] else s.pending c := by
      rw [pending, commit, Dict.get?_set]
      split <;> rfl
    rw [visible, rows_commit hdb, hpending]
    split
    · rename_i heq
      rw [List.append_nil, heq]
    · rfl
  constructor
  · constructor
    · exact fun c => (hvisible c) ▸ h.once c
    · intro c hc
      rw [commit, Dict.get?_set] at hc
      rw [commit, Dict.get?_modify]
      split at hc
      · rw [if_pos ‹_›, Option.isSome_map, ← ‹b = c›]
        exact hdb
      · rw [if_neg ‹_›]
        exact h.connected c hc
  · intro c x hx
    rw [rows_commit hdb]
    split
    · exact List.mem_append_left _ (‹b = c› ▸ hx)
    · exact hx
  · exact fun _ _ => id
  · exact fun _ _ => id
  · exact fun c x hx => Or.inl (hvisible c ▸ hx)
  · exact fun _ _ => Or.inl
  · exact fun _ _ => Or.inl

/-- The lines of a file after one is appended. -/
theorem mem_lines_set {files : Dict Bucket (List Envelope)} {x : Envelope} :
    x ∈ lines (files.set b (lines files b ++ [e])) c ↔ x ∈ lines files c ∨ b = c ∧ x = e := by
  rw [lines, Dict.get?_set]
  by_cases hc : b = c
  · subst hc
    simp
  · simp [hc, lines]

/-- Appending to the fallback file loses nothing. -/
theorem goes_appendFallback (h : s.Tidy) (hnew : new b e) : Goes new s (s.appendFallback b e) where
  tidy := ⟨h.once, h.connected⟩
  rows := fun _ _ => id
  fallback := fun c x hx => mem_lines_set.mpr (Or.inl hx)
  late := fun _ _ => id
  newVisible := fun _ _ => Or.inl
  newFallback := by
    intro c x hx
    refine (mem_lines_set.mp hx).imp_right ?_
    rintro ⟨rfl, rfl⟩
    exact hnew
  newLate := fun _ _ => Or.inl

/-- Appending to the late file loses nothing. -/
theorem goes_appendLate (h : s.Tidy) (hnew : new b e) : Goes new s (s.appendLate b e) where
  tidy := ⟨h.once, h.connected⟩
  rows := fun _ _ => id
  fallback := fun _ _ => id
  late := fun c x hx => mem_lines_set.mpr (Or.inl hx)
  newVisible := fun _ _ => Or.inl
  newFallback := fun _ _ => Or.inl
  newLate := by
    intro c x hx
    refine (mem_lines_set.mp hx).imp_right ?_
    rintro ⟨rfl, rfl⟩
    exact hnew

/-- A connection is closed, with or without its file becoming read-only. -/
theorem goes_closeBucket (seals : Bucket → Bool) (now : Instant) (h : s.Tidy) (b : Bucket) :
    Goes new s (closeBucket seals now s b) := by
  have hpending : ∀ c, ((s.connections.pop b).get? c).getD [] = s.pending c ∨
      ((s.connections.pop b).get? c).getD [] = [] := by
    intro c
    rw [Dict.get?_pop]
    split
    · exact Or.inr rfl
    · exact Or.inl rfl
  have hsublist : ∀ c, (s.rows c ++ ((s.connections.pop b).get? c).getD []).Sublist
      (s.visible c) := by
    intro c
    rcases hpending c with hsame | hnone
    · rw [hsame]
      exact List.Sublist.refl _
    · rw [hnone, List.append_nil]
      exact List.sublist_append_left _ _
  unfold closeBucket
  split
  · have hget : ∀ c, (((s.dbs.modify b fun db => { db with isSealed := true }).get? c).map
        BucketDb.rows) = (s.dbs.get? c).map BucketDb.rows := by
      intro c
      rw [Dict.get?_modify]
      split
      · cases s.dbs.get? c <;> rfl
      · rfl
    have hrows : ∀ c, TraceStore.rows { s with
        dbs := s.dbs.modify b fun db => { db with isSealed := true }
        connections := s.connections.pop b } c = s.rows c :=
      fun c => congrArg (Option.getD · []) (hget c)
    refine .of_rows h hrows rfl rfl (fun c => ?_) fun c hc => ?_
    · rw [visible, hrows]
      exact hsublist c
    · have hold := h.connected c (by
        obtain ⟨rows, hget⟩ := Option.isSome_iff_exists.mp hc
        rw [(Dict.get?_pop_cases hget).2]
        rfl)
      have hmap := congrArg Option.isSome (hget c)
      rw [Option.isSome_map, Option.isSome_map] at hmap
      exact hmap.trans hold
  · refine .of_rows h (fun _ => rfl) rfl rfl hsublist fun c hc => ?_
    obtain ⟨rows, hget⟩ := Option.isSome_iff_exists.mp hc
    exact h.connected c (by rw [(Dict.get?_pop_cases hget).2]; rfl)

/-- What every part of a loop keeps, the loop keeps. -/
theorem goes_foldl {α : Type} {f : TraceStore → α → TraceStore}
    (hf : ∀ s, s.Tidy → ∀ a, Goes new s (f s a)) (as : List α) (h : s.Tidy) :
    Goes new s (as.foldl f s) := by
  induction as generalizing s with
  | nil => exact .refl h
  | cons a as ih => exact (hf s h a).trans (ih (hf s h a).tidy)

/-- Closing the store loses nothing. -/
theorem goes_close (h : s.Tidy) : Goes new s s.close := by
  refine .of_rows h (fun _ => rfl) rfl rfl (fun c => ?_) fun c hc => ?_
  · change List.Sublist (s.rows c ++ []) (s.visible c)
    rw [List.append_nil]
    exact List.sublist_append_left _ _
  · contradiction

/-! ### Recording -/

/-- An envelope of this id is in a file of the hour. -/
def Held (s : TraceStore) (b : Bucket) (id : String) : Prop :=
  ∃ e, e.id = id ∧ (e ∈ s.rows b ∨ e ∈ lines s.fallback b ∨ e ∈ lines s.late b)

/-- What is in a file stays in one. -/
theorem Held.goes {id : String} (h : s.Held b id) (hgoes : Goes new s s') : s'.Held b id := by
  obtain ⟨e, hid, hheld⟩ := h
  exact ⟨e, hid, hheld.imp (hgoes.rows b e) (Or.imp (hgoes.fallback b e) (hgoes.late b e))⟩

/-- An appended envelope is in the file. -/
theorem held_appendFallback (s : TraceStore) (b : Bucket) (e : Envelope) :
    (s.appendFallback b e).Held b e.id :=
  ⟨e, rfl, Or.inr (Or.inl (mem_lines_set.mpr (Or.inr ⟨rfl, rfl⟩)))⟩

/-- However far the write gets, the envelope is held afterwards. -/
theorem write_spec (h : s.Tidy) (hnew : new b e) (w : DbWrite) :
    Goes new s (s.write b e w) ∧ (s.write b e w).Held b e.id := by
  have hopened : Goes new s (s.openBucket b) := goes_openBucket h b
  have hexecuted := hopened.trans (goes_execute hopened.tidy (isSome_openBucket s b) hnew)
  have hconnected : ((s.openBucket b |>.execute b e).connections.get? b).isSome := by
    unfold execute
    split
    · exact isSome_openBucket s b
    · rw [Dict.get?_set_self]
      rfl
  cases w with
  | unopened created =>
    refine ⟨?_, held_appendFallback _ _ _⟩
    simp only [write]
    split
    · have hcreated : Goes new s (s.createDb b) := goes_createDb h b
      exact hcreated.trans (goes_appendFallback hcreated.tidy hnew)
    · exact goes_appendFallback h hnew
  | unexecuted =>
    exact ⟨hopened.trans (goes_appendFallback hopened.tidy hnew), held_appendFallback _ _ _⟩
  | uncommitted =>
    exact ⟨hexecuted.trans (goes_appendFallback hexecuted.tidy hnew), held_appendFallback _ _ _⟩
  | committed raised =>
    have hcommitted := hexecuted.trans (goes_commit hexecuted.tidy hconnected)
    cases raised with
    | true =>
      exact ⟨hcommitted.trans (goes_appendFallback hcommitted.tidy hnew),
        held_appendFallback _ _ _⟩
    | false =>
      refine ⟨hcommitted, ?_⟩
      have hid : e.id ∈ (((s.openBucket b).execute b e).visible b).map Envelope.id := by
        rw [visible_execute]
        split
        · rw [List.map_append]
          exact List.mem_append_right _ List.mem_cons_self
        · rename_i hold
          by_contra hnot
          exact hold ⟨rfl, hnot⟩
      obtain ⟨x, hx, hid⟩ := List.mem_map.mp hid
      refine ⟨x, hid, Or.inl ?_⟩
      change x ∈ (((s.openBucket b).execute b e).commit b).rows b
      rw [rows_commit (hexecuted.tidy.connected b hconnected), if_pos rfl]
      exact hx

/-- Whatever fails meanwhile, a recorded envelope is in a file of its hour. -/
theorem record_spec (h : s.Tidy) (w : Weather) (hnew : new (bucketKey e.createdAt.micros) e) :
    Goes new s (s.record w e) ∧ (s.record w e).Held (bucketKey e.createdAt.micros) e.id := by
  have hwritten : ∀ t : TraceStore, Goes new s t ∧ t.Held (bucketKey e.createdAt.micros) e.id →
      Goes new s (t.evictOldBuckets w.seals w.now (bucketKey w.current.micros)) ∧
        (t.evictOldBuckets w.seals w.now (bucketKey w.current.micros)).Held
          (bucketKey e.createdAt.micros) e.id := by
    rintro t ⟨hgoes, hheld⟩
    have hevicted : Goes new t
        (t.evictOldBuckets w.seals w.now (bucketKey w.current.micros)) :=
      goes_foldl (fun s h b => goes_closeBucket w.seals w.now h b) _ hgoes.tidy
    exact ⟨hgoes.trans hevicted, hheld.goes hevicted⟩
  apply hwritten
  split
  · exact ⟨goes_appendLate h hnew,
      ⟨e, rfl, Or.inr (Or.inr (mem_lines_set.mpr (Or.inr ⟨rfl, rfl⟩)))⟩⟩
  · exact write_spec h hnew w.write

end TraceStore

/-! ## Reading -/

section Reading

variable {order : RowOrder} {f : TraceFilter} {merged found : List Envelope} {e : Envelope}
  {limit : Nat}

variable {b : Bucket} {files : Dict Bucket (List Envelope)}

/-- The names are those of the files that are there. -/
theorem mem_names {ν : Type} {files : Dict Bucket ν} :
    b ∈ names files ↔ ∃ v, files.get? b = some v := by
  rw [names, (List.mergeSort_perm _ _).mem_iff, Dict.mem_keys_iff]

/-- A file with a line has a name. -/
theorem mem_names_of_mem_lines (h : e ∈ TraceStore.lines files b) : b ∈ names files := by
  rw [mem_names]
  cases hget : files.get? b with
  | some es => exact ⟨es, rfl⟩
  | none =>
    rw [TraceStore.lines, hget] at h
    contradiction

/-- `merged.sort`. -/
theorem sorted_newest (merged : List Envelope) :
    (merged.mergeSort fun a b => b.createdAt.micros ≤ a.createdAt.micros).Pairwise
      fun a b => b.createdAt.micros ≤ a.createdAt.micros := by
  have hsorted : (merged.mergeSort fun a b => b.createdAt.micros ≤ a.createdAt.micros).Pairwise
      fun a b => decide (b.createdAt.micros ≤ a.createdAt.micros) = true := by
    refine List.pairwise_mergeSort ?_ ?_ _
    · intro a b c hab hbc
      exact decide_eq_true ((of_decide_eq_true hbc).trans (of_decide_eq_true hab))
    · intro a b
      simpa using le_total b.createdAt.micros a.createdAt.micros
  exact hsorted.imp of_decide_eq_true

/-- The names, newest first. -/
theorem names_pairwise {ν : Type} (files : Dict Bucket ν) :
    (names files).Pairwise fun a b => b < a := by
  have hordered : (names files).Pairwise fun a b => b ≤ a := by
    have hsorted : (names files).Pairwise fun a b => decide (b ≤ a) = true := by
      refine List.pairwise_mergeSort ?_ ?_ _
      · intro a b c hab hbc
        exact decide_eq_true ((of_decide_eq_true hbc).trans (of_decide_eq_true hab))
      · intro a b
        simpa using le_total b a
    exact hsorted.imp of_decide_eq_true
  have hnodup : (names files).Nodup :=
    (List.mergeSort_perm _ _).nodup_iff.mpr files.nodup
  exact hordered.imp₂ (fun _ _ hle hne => lt_of_le_of_ne hle (Ne.symm hne)) hnodup

/-- Merging an envelope drops none. -/
theorem subset_addUnseen (merged : List Envelope) (e : Envelope) : merged ⊆ addUnseen merged e := by
  unfold addUnseen
  split
  · exact List.Subset.refl _
  · exact List.subset_append_left _ _

/-- What a merge adds to, and what it adds. -/
theorem foldl_addUnseen (found merged : List Envelope) (h : (merged.map Envelope.id).Nodup) :
    ((found.foldl addUnseen merged).map Envelope.id).Nodup ∧ merged ⊆ found.foldl addUnseen merged ∧
      (∀ e ∈ found.foldl addUnseen merged, e ∈ merged ∨ e ∈ found) ∧
      ∀ e ∈ found, ∃ x ∈ found.foldl addUnseen merged, x.id = e.id := by
  induction found generalizing merged with
  | nil => exact ⟨h, List.Subset.refl _, fun e he => Or.inl he, fun e he => by contradiction⟩
  | cons a found ih =>
    have hnodup : ((addUnseen merged a).map Envelope.id).Nodup := by
      unfold addUnseen
      split
      · exact h
      · rename_i hfresh
        rw [List.map_append, List.nodup_append]
        refine ⟨h, List.nodup_singleton _, ?_⟩
        rintro x hx _ hy rfl
        exact hfresh (List.mem_singleton.mp hy ▸ hx)
    have hsame : ∃ x ∈ addUnseen merged a, x.id = a.id := by
      unfold addUnseen
      split
      · exact List.mem_map.mp ‹_›
      · exact ⟨a, List.mem_append_right _ List.mem_cons_self, rfl⟩
    have hadded : ∀ e ∈ addUnseen merged a, e ∈ merged ∨ e = a := by
      intro e he
      unfold addUnseen at he
      split at he
      · exact Or.inl he
      · exact (List.mem_append.mp he).imp_right List.mem_singleton.mp
    obtain ⟨hids, hsub, hmem, hall⟩ := ih (addUnseen merged a) hnodup
    refine ⟨hids, List.Subset.trans (subset_addUnseen merged a) hsub, ?_, ?_⟩
    · intro e he
      rcases hmem e he with hmem | hmem
      · rcases hadded e hmem with hold | rfl
        · exact Or.inl hold
        · exact Or.inr List.mem_cons_self
      · exact Or.inr (List.mem_cons_of_mem _ hmem)
    · intro e he
      rcases List.mem_cons.mp he with rfl | he
      · obtain ⟨x, hx, hid⟩ := hsame
        exact ⟨x, hsub hx, hid⟩
      · exact hall e he

/-- Matching envelopes that were recorded, each once. -/
structure Merged (recorded : List Envelope) (f : TraceFilter) (merged : List Envelope) : Prop where
  once : (merged.map Envelope.id).Nodup
  matching : ∀ e ∈ merged, e ∈ recorded ∧ f.admits e = true

variable {recorded : List Envelope}

/-- Merging what is found keeps every id once, and has all that is found. -/
theorem Merged.merge (hsame : ∀ e ∈ recorded, ∀ e' ∈ recorded, e.id = e'.id → e = e')
    (h : Merged recorded f merged) (hfound : ∀ e ∈ found, e ∈ recorded ∧ f.admits e = true) :
    Merged recorded f (found.foldl addUnseen merged) ∧ merged ⊆ found.foldl addUnseen merged ∧
      found ⊆ found.foldl addUnseen merged := by
  obtain ⟨honce, hsub, hmem, hall⟩ := foldl_addUnseen found merged h.once
  have hmatching : ∀ e ∈ found.foldl addUnseen merged, e ∈ recorded ∧ f.admits e = true :=
    fun e he => (hmem e he).elim (h.matching e) (hfound e)
  refine ⟨⟨honce, hmatching⟩, hsub, ?_⟩
  intro e he
  obtain ⟨x, hx, hid⟩ := hall e he
  rwa [← hsame x (hmatching x hx).1 e (hfound e he).1 hid]

/-- An event is in the hour that its bucket covers. -/
theorem bucketOverlaps_of_admits (h : f.admits e = true) :
    bucketOverlaps (bucketKey e.createdAt.micros) f = true := by
  have hpos : (0 : Int) < microsPerHour := by norm_num [microsPerHour]
  have hstart : e.createdAt.micros / microsPerHour * microsPerHour ≤ e.createdAt.micros :=
    Int.ediv_mul_le _ hpos.ne'
  have hend : e.createdAt.micros ≤
      e.createdAt.micros / microsPerHour * microsPerHour + microsPerHour := by
    have hlt := Int.lt_ediv_add_one_mul_self e.createdAt.micros hpos
    rw [add_mul, one_mul] at hlt
    exact hlt.le
  have hmono : ∀ {t u : Int}, t ≤ u → Bound.ofMicros t ≤ Bound.ofMicros u := by
    intro t u hle
    exact WithBot.coe_le_coe.mpr (WithTop.coe_le_coe.mpr (Int.cast_le.mpr hle))
  simp only [TraceFilter.admits, Bool.and_eq_true] at h
  obtain ⟨⟨⟨⟨-, -⟩, -⟩, hsince⟩, huntil⟩ := h
  simp only [bucketOverlaps, e.createdAt.strptime_bucketKey, Bool.and_eq_true, Bool.not_eq_true']
  constructor
  · cases hbound : f.since with
    | none => rfl
    | some since =>
      rw [hbound, Option.all_some, decide_eq_true_eq] at hsince
      rw [Option.any_some, decide_eq_false_iff_not, not_lt]
      exact hsince.trans (hmono hend)
  · cases hbound : f.until? with
    | none => rfl
    | some until? =>
      rw [hbound, Option.all_some, decide_eq_true_eq] at huntil
      rw [Option.any_some, decide_eq_false_iff_not, not_lt]
      exact (hmono hstart).trans huntil

/-- What is in an earlier hour was created earlier. -/
theorem createdAt_le_of_lt {e' : Envelope}
    (h : bucketKey e'.createdAt.micros < bucketKey e.createdAt.micros) :
    e'.createdAt.micros ≤ e.createdAt.micros := by
  by_contra hlt
  exact absurd (Instant.bucketKey_mono (not_le.mp hlt).le) (not_le.mpr h)

/-- The rows of a bucket that are read, and the rest of them. -/
theorem found_spec (order : RowOrder) (limit : Nat) {rows : List Envelope}
    (honce : (rows.map Envelope.id).Nodup) :
    (∀ e ∈ (order.sort (rows.filter f.admits)).take limit, e ∈ rows ∧ f.admits e = true) ∧
      ∀ e ∈ rows, f.admits e = true → e ∈ (order.sort (rows.filter f.admits)).take limit ∨
        Covered (fun e : Envelope => e.createdAt.micros) limit
          ((order.sort (rows.filter f.admits)).take limit) e := by
  have hperm := order.perm (rows.filter f.admits)
  have hnodup : (order.sort (rows.filter f.admits)).Nodup :=
    hperm.nodup_iff.mpr (((honce.of_map _).filter _))
  constructor
  · intro e he
    exact List.mem_filter.mp (hperm.mem_iff.mp (List.mem_of_mem_take he))
  · intro e he hadmits
    rw [or_iff_not_imp_left]
    exact covered_take hnodup (order.ordered _)
      (hperm.mem_iff.mpr (List.mem_filter.mpr ⟨he, hadmits⟩))

/-- What a reading of buckets adds: a row that matches is read or covered. -/
structure Reads (recorded : List Envelope) (f : TraceFilter) (limit : Nat) (s : TraceStore)
    (bs : List Bucket) (merged merged' : List Envelope) : Prop where
  matching : Merged recorded f merged'
  subset : merged ⊆ merged'
  covered : ∀ b ∈ bs, ∀ e ∈ s.visible b, f.admits e = true →
    e ∈ merged' ∨ Covered (fun e : Envelope => e.createdAt.micros) limit merged' e

/-- The databases are read until what is left out is covered. -/
theorem reads_readDbs {s : TraceStore} {bs : List Bucket}
    (hsame : ∀ e ∈ recorded, ∀ e' ∈ recorded, e.id = e'.id → e = e')
    (hvisible : ∀ b, ∀ e ∈ s.visible b, e ∈ recorded ∧ bucketKey e.createdAt.micros = b)
    (honce : ∀ b, ((s.visible b).map Envelope.id).Nodup)
    (hnames : bs.Pairwise fun a b => b < a) (hmerged : Merged recorded f merged)
    (hnewer : ∀ m ∈ merged, ∀ b ∈ bs, b < bucketKey m.createdAt.micros) :
    Reads recorded f limit s bs merged (readDbs order f limit s merged bs).2 := by
  induction bs generalizing s merged with
  | nil => exact ⟨hmerged, List.Subset.refl _, fun b hb => by contradiction⟩
  | cons b bs ih =>
    rw [List.pairwise_cons] at hnames
    simp only [readDbs, TraceStore.visible_openBucket]
    split
    · obtain ⟨hfound, hcovered⟩ := found_spec order limit (honce b)
      generalize (order.sort ((s.visible b).filter f.admits)).take limit = found at *
      have hmatching : ∀ e ∈ found, e ∈ recorded ∧ f.admits e = true :=
        fun e he => ⟨(hvisible b e (hfound e he).1).1, (hfound e he).2⟩
      have hmem := (foldl_addUnseen found merged hmerged.once).2.2.1
      obtain ⟨hmerged', hsub, hsub'⟩ := hmerged.merge hsame hmatching
      generalize found.foldl addUnseen merged = merged' at *
      have hhere : ∀ e ∈ s.visible b, f.admits e = true → e ∈ merged' ∨
          Covered (fun e : Envelope => e.createdAt.micros) limit merged' e :=
        fun e he hadmits => (hcovered e he hadmits).imp (fun h => hsub' h) fun h => h.mono hsub'
      have hlater : ∀ m ∈ merged', ∀ c ∈ bs, c < bucketKey m.createdAt.micros := by
        intro m hm c hc
        rcases hmem m hm with hold | hnew
        · exact hnewer m hold c (List.mem_cons_of_mem b hc)
        · rw [(hvisible b m (hfound m hnew).1).2]
          exact hnames.1 c hc
      split
      · -- the buckets that are left are older than everything read so far
        rename_i henough
        have hlength : limit ≤ merged'.length := by omega
        refine ⟨hmerged', hsub, ?_⟩
        intro c hc e he hadmits
        rcases List.mem_cons.mp hc with rfl | hc
        · exact hhere e he hadmits
        · refine Or.inr (covered_of_length (hmerged'.once.of_map _) hlength fun m hm => ?_)
          refine createdAt_le_of_lt ?_
          rw [(hvisible c e he).2]
          exact hlater m hm c hc
      · have hopened := TraceStore.visible_openBucket s b
        have hrest := ih (s := s.openBucket b) (fun c e he => hvisible c e (hopened c ▸ he))
          (fun c => hopened c ▸ honce c) hnames.2 hmerged' hlater
        refine ⟨hrest.matching, List.Subset.trans hsub hrest.subset, ?_⟩
        intro c hc e he hadmits
        rcases List.mem_cons.mp hc with rfl | hc
        · exact (hhere e he hadmits).imp (fun h => hrest.subset h) fun h => h.mono hrest.subset
        · exact hrest.covered c hc e ((hopened c).symm ▸ he) hadmits
    · rename_i hskipped
      have hrest := ih hvisible honce hnames.2 hmerged
        fun m hm c hc => hnewer m hm c (List.mem_cons_of_mem b hc)
      refine ⟨hrest.matching, hrest.subset, ?_⟩
      intro c hc e he hadmits
      rcases List.mem_cons.mp hc with rfl | hc
      · exact absurd ((hvisible c e he).2 ▸ bucketOverlaps_of_admits hadmits) hskipped
      · exact hrest.covered c hc e he hadmits

/-- The lines of all buckets, merged in. -/
theorem merged_foldl_readLines (hsame : ∀ e ∈ recorded, ∀ e' ∈ recorded, e.id = e'.id → e = e')
    (hlines : ∀ b, ∀ e ∈ TraceStore.lines files b,
      e ∈ recorded ∧ bucketKey e.createdAt.micros = b) (bs : List Bucket)
    (hmerged : Merged recorded f merged) :
    Merged recorded f (bs.foldl (readLines f files) merged) ∧
      merged ⊆ bs.foldl (readLines f files) merged ∧
      ∀ b ∈ bs, ∀ e ∈ TraceStore.lines files b, f.admits e = true →
        e ∈ bs.foldl (readLines f files) merged := by
  induction bs generalizing merged with
  | nil => exact ⟨hmerged, List.Subset.refl _, fun b hb => by contradiction⟩
  | cons b bs ih =>
    have hread : Merged recorded f (readLines f files merged b) ∧
        merged ⊆ readLines f files merged b ∧
        ∀ e ∈ TraceStore.lines files b, f.admits e = true → e ∈ readLines f files merged b := by
      unfold readLines
      split
      · obtain ⟨hmerged', hsub, hsub'⟩ := hmerged.merge hsame fun e he =>
          ⟨(hlines b e (List.mem_of_mem_filter he)).1, (List.mem_filter.mp he).2⟩
        exact ⟨hmerged', hsub, fun e he hadmits => hsub' (List.mem_filter.mpr ⟨he, hadmits⟩)⟩
      · rename_i hskipped
        refine ⟨hmerged, List.Subset.refl _, fun e he hadmits => ?_⟩
        exact absurd ((hlines b e he).2 ▸ bucketOverlaps_of_admits hadmits) hskipped
    obtain ⟨hmerged', hsub, hall⟩ := hread
    obtain ⟨hrest, hsub₂, hall₂⟩ := ih hmerged'
    refine ⟨hrest, List.Subset.trans hsub hsub₂, ?_⟩
    intro c hc e he hadmits
    rcases List.mem_cons.mp hc with rfl | hc
    · exact hsub₂ (hall e he hadmits)
    · exact hall₂ c hc e he hadmits

end Reading

/-! ## Runs -/

namespace TraceStore

/-- The files hold recorded envelopes, each in its hour, and a file holds every one of them. -/
structure Sound (recorded : List Envelope) (s : TraceStore) : Prop where
  tidy : s.Tidy
  visible : ∀ b, ∀ e ∈ s.visible b, e ∈ recorded ∧ bucketKey e.createdAt.micros = b
  fallback : ∀ b, ∀ e ∈ lines s.fallback b, e ∈ recorded ∧ bucketKey e.createdAt.micros = b
  late : ∀ b, ∀ e ∈ lines s.late b, e ∈ recorded ∧ bucketKey e.createdAt.micros = b
  held : ∀ e ∈ recorded, s.Held (bucketKey e.createdAt.micros) e.id

/-- An empty store is sound. -/
theorem sound_init : Sound [] init where
  tidy := ⟨fun _ => List.nodup_nil, fun _ h => by contradiction⟩
  visible := fun _ _ he => by contradiction
  fallback := fun _ _ he => by contradiction
  late := fun _ _ he => by contradiction
  held := fun _ he => by contradiction

variable {s : TraceStore}

/-- A store stays sound while what is added gets into files. -/
theorem Sound.goes {s' : TraceStore} {recorded added : List Envelope} (h : Sound recorded s)
    (hgoes : Goes (fun b e => e ∈ added ∧ bucketKey e.createdAt.micros = b) s s')
    (hheld : ∀ e ∈ added, s'.Held (bucketKey e.createdAt.micros) e.id) :
    Sound (recorded ++ added) s' := by
  have hold : ∀ {b : Bucket} {e : Envelope}, e ∈ recorded ∧ bucketKey e.createdAt.micros = b →
      e ∈ recorded ++ added ∧ bucketKey e.createdAt.micros = b :=
    fun h => h.imp_left (List.mem_append_left _)
  have hnew : ∀ {b : Bucket} {e : Envelope}, e ∈ added ∧ bucketKey e.createdAt.micros = b →
      e ∈ recorded ++ added ∧ bucketKey e.createdAt.micros = b :=
    fun h => h.imp_left (List.mem_append_right _)
  constructor
  · exact hgoes.tidy
  · exact fun b e he => (hgoes.newVisible b e he).elim (fun h' => hold (h.visible b e h')) hnew
  · exact fun b e he => (hgoes.newFallback b e he).elim (fun h' => hold (h.fallback b e h')) hnew
  · exact fun b e he => (hgoes.newLate b e he).elim (fun h' => hold (h.late b e h')) hnew
  · intro e he
    rcases List.mem_append.mp he with hrecorded | hadded
    · exact (h.held e hrecorded).goes hgoes
    · exact hheld e hadded

/-- Nothing is recorded. -/
theorem Sound.still {s' : TraceStore} {recorded : List Envelope} (h : Sound recorded s)
    (hgoes : Goes (fun b e => e ∈ [] ∧ bucketKey e.createdAt.micros = b) s s') :
    Sound recorded s' := by
  have hsound := h.goes hgoes fun e he => by contradiction
  rwa [List.append_nil] at hsound

/-- Reading databases loses nothing. -/
theorem goes_readDbs {new : Bucket → Envelope → Prop} (order : RowOrder) (f : TraceFilter)
    (limit : Nat) (h : s.Tidy) (merged : List Envelope) (bs : List Bucket) :
    Goes new s (readDbs order f limit s merged bs).1 := by
  induction bs generalizing s merged with
  | nil => exact .refl h
  | cons b bs ih =>
    have hopened : Goes new s (s.openBucket b) := goes_openBucket h b
    simp only [readDbs]
    split
    · split
      · exact hopened
      · exact hopened.trans (ih hopened.tidy _)
    · exact ih h merged

end TraceStore

/-! ## What is recorded -/

/-- A filter admits what agrees with each of the fields it gives. -/
theorem TraceFilter.admits_iff {f : TraceFilter} {e : Envelope} :
    f.admits e = true ↔ (∀ kind ∈ f.kind, e.kind = kind) ∧
      (∀ channelId ∈ f.channelId, e.channelId = some channelId) ∧
      (∀ traceId ∈ f.traceId, e.traceId = some traceId) ∧
      (∀ since ∈ f.since, since ≤ .ofMicros e.createdAt.micros) ∧
      ∀ until? ∈ f.until?, .ofMicros e.createdAt.micros ≤ until? := by
  simp only [admits, Bool.and_eq_true, Option.all_eq_true, decide_eq_true_iff, and_assoc,
    Option.mem_def]

/-- What an envelope has of the call that recorded it. -/
structure Envelope.Keeps (e : Envelope) (agentName kind : String) (fields : TraceFields)
    (now : Instant) (newId : String) : Prop where
  owner : e.agentName = agentName ∧ e.kind = kind
  texts : e.traceId = fields.traceId ∧ e.parentId = fields.parentId ∧
    e.channelId = fields.channelId ∧ e.threadId = fields.threadId ∧
    e.backendName = fields.backendName ∧ e.model = fields.model ∧ e.error = fields.error
  costs : e.tokensIn = fields.tokensIn ∧ e.tokensOut = fields.tokensOut ∧
    e.costUsd = fields.costUsd ∧ ∀ durationMs ∈ fields.durationMs, e.durationMs = some durationMs
  id : (∀ id ∈ fields.id, id ≠ "" → e.id = id) ∧ ((∀ id ∈ fields.id, id = "") → e.id = newId)
  createdAt : (∀ t ∈ fields.createdAt, t.micros ≠ 0 → e.createdAt = t) ∧
    ((∀ t ∈ fields.createdAt, t.micros = 0) → e.createdAt = now)
  payload : ∀ payload ∈ fields.payload, e.payload = payload

namespace TraceHistory

open TraceStore

variable {slug kind newId : String} {fields : TraceFields} {now : Instant} {e : Envelope}

/-- A built envelope has the fields of its call. -/
theorem keeps_of_build (h : buildEnvelope slug kind fields now newId = .ok e) :
    e.Keeps slug kind fields now newId := by
  unfold buildEnvelope at h
  split at h
  · contradiction
  cases h
  refine ⟨⟨rfl, rfl⟩, ⟨rfl, rfl, rfl, rfl, rfl, rfl, rfl⟩, ⟨rfl, rfl, rfl, ?_⟩, ?_, ?_, ?_⟩
  · intro durationMs h
    simp [Option.mem_def.mp h]
  · cases fields.id <;> simp +contextual [Option.filter]
  · cases fields.createdAt <;> simp +contextual [Option.filter]
  · intro payload h
    simp [Option.mem_def.mp h]

variable {calls : List TraceCall}

/-- What has been recorded are the envelopes of the calls. -/
theorem mem_recorded_iff : e ∈ (after slug calls).recorded ↔ ∃ kind fields now newId weather,
      .record kind fields now newId weather ∈ calls ∧
        buildEnvelope slug kind fields now newId = .ok e := by
  induction calls using List.reverseRecOn with
  | nil => simp [after]
  | append_singleton calls call ih =>
    rw [after, List.foldl_append, ← after, List.foldl_cons, List.foldl_nil]
    cases call with
    | record kind fields now newId weather =>
      simp only [step, List.mem_append, List.mem_singleton, or_and_right, exists_or]
      cases hbuild : buildEnvelope slug kind fields now newId with
      | error error => simp [ih, hbuild]
      | ok x => simp [ih, hbuild, eq_comm]
    | list | close => simp [step, ih]

/-- A call of a known kind is recorded, with its fields. -/
theorem recorded_of_call {weather : TraceStore.Weather}
    (h : .record kind fields now newId weather ∈ calls) (hkind : kind ∈ VALID_KINDS) :
    ∃ e ∈ (after slug calls).recorded, e.Keeps slug kind fields now newId := by
  have hbuild : ∃ e, buildEnvelope slug kind fields now newId = .ok e :=
    ⟨_, if_neg (not_not_intro hkind)⟩
  obtain ⟨e, he⟩ := hbuild
  exact ⟨e, mem_recorded_iff.mpr ⟨kind, fields, now, newId, weather, h, he⟩, keeps_of_build he⟩

/-! ## Listings of a run -/

/-- Every call keeps the store sound. -/
theorem sound_step (slug : String) {h : TraceHistory} (hsound : Sound h.recorded h.store)
    (call : TraceCall) : Sound (h.step slug call).recorded (h.step slug call).store := by
  cases call with
  | record kind fields now newId weather =>
    simp only [step]
    split
    · exact hsound
    · rename_i e _
      have hspec : Goes (fun b x => x ∈ [e] ∧ bucketKey x.createdAt.micros = b) h.store
          (h.store.record weather e) ∧ _ :=
        record_spec hsound.tidy weather ⟨List.mem_cons_self, rfl⟩
      obtain ⟨hgoes, hheld⟩ := hspec
      refine hsound.goes hgoes fun x hx => ?_
      rw [List.mem_singleton.mp hx]
      exact hheld
  | list order filter limit =>
    exact hsound.still
      (goes_readDbs order filter (max 1 (min limit 1000)) hsound.tidy [] (names h.store.dbs))
  | close => exact hsound.still (goes_close hsound.tidy)

/-- A store is sound after any calls. -/
theorem sound_after (slug : String) (calls : List TraceCall) :
    Sound (after slug calls).recorded (after slug calls).store := by
  have hfold : ∀ h : TraceHistory, Sound h.recorded h.store →
      Sound (calls.foldl (step slug) h).recorded (calls.foldl (step slug) h).store := by
    induction calls with
    | nil => exact fun _ => id
    | cons call calls ih => exact fun h hsound => ih _ (sound_step slug hsound call)
  exact hfold _ sound_init

/-- Rows of one time as they were written. -/
def stableOrder : RowOrder where
  sort es := es.mergeSort fun a b => b.createdAt.micros ≤ a.createdAt.micros
  perm es := List.mergeSort_perm es _
  ordered := sorted_newest

def noon : Instant := ⟨1767268800000000, by norm_num⟩

/-- Two events of one hour, the first of which the database does not commit. -/
def twoEvents : List TraceCall :=
  [.record "lifecycle" {} noon "e1" ⟨.uncommitted, noon, noon, fun _ => true⟩,
    .record "error" {} noon "e2" ⟨.committed false, noon, noon, fun _ => true⟩]

end TraceHistory

end TinyAgentOS.Trace
