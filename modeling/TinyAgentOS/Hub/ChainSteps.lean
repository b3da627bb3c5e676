import TinyAgentOS.Hub.ChainCalls

/-!
# What the statements of a chain's calls keep

The calls take turns at the lock, but a deletion reads the post before its turn and drops content
after it.  What they keep is stated with the bodies of the chain; each statement has its lemma.

Main results:

- `HubState.Sound.index`: the row is inserted where it continues the chain.
- `HubState.Sound.dropObject`: nobody else is deleting the post that is dropped.
- `HubState.Sound.step`: a step under the condition keeps what holds.
-/

namespace TinyAgentOS.Hub

open Collections HashChain

namespace HubState

variable {η : Type} [DecidableEq η] (k : HubKeys η)

/-! ## What is kept -/

/-- What holds of the tables and the calls, with the bodies of the chain. -/
structure Sound (s : HubState η) (bodies : List (HubBody η)) : Prop where
  key : s.tables.resolvedKey k.signingFingerprint = some k.signingPubkey
  chain : s.tables.chain = bodies.map (rowOf k)
  honest : IsChain k bodies
  keyed : ∀ h obj, s.tables.objects.get? h = some obj → h = k.objectHash obj.body
  signed : ∀ h obj, s.tables.objects.get? h = some obj → obj.body.seq? ≠ none →
    obj = k.signObject obj.body ∧ obj.body.author = k.signingFingerprint
  holder : ∀ id call, s.calls.get? id = some call → call.inside = true → s.lock = some id
  fits : ∀ id call entry obj, s.calls.get? id = some call → call.object? = some (entry, obj) →
    Fits k bodies entry obj
  placed : ∀ h obj, s.tables.objects.get? h = some obj → s.Placed bodies obj.body
  /-- What a deletion has read is placed, and a post among that is still stored. -/
  found : ∀ id call h obj, s.calls.get? id = some call → call.deletes? = some (h, obj) →
    h = k.objectHash obj.body ∧ s.Placed bodies obj.body ∧
      (obj.body.isPost = true → s.tables.objects.get? h = some obj)
  alone : ∀ id id' call call' h obj obj', s.calls.get? id = some call →
    s.calls.get? id' = some call' → call.deletes? = some (h, obj) →
      call'.deletes? = some (h, obj') → obj.body.isPost = true → id = id'
  /-- A post with a tombstone is gone, or its content is being dropped. -/
  buried : ∀ tomb ∈ bodies, ∀ body, tomb.target? = some (k.objectHash body) →
    body.isPost = true → s.Placed bodies body ∧
      (s.tables.objects.get? (k.objectHash body) = none ∨
        ∃ id obj blobs, s.calls.get? id = some (.dropping (k.objectHash body) obj blobs))
  once : bodies.Pairwise fun a b => ∀ body : HubBody η, body.isPost = true →
    a.target? = some (k.objectHash body) → b.target? ≠ some (k.objectHash body)
  gone : ∀ id h, s.calls.get? id = some (.deleted h) →
    s.tables.objects.get? h = none ∧ ∃ body, h = k.objectHash body ∧ s.Placed bodies body
  stocked : ∀ h obj, s.tables.objects.get? h = some obj → obj.body.isPost = true →
    ∀ blob ∈ obj.body.blobs, blob ∈ s.ingested →
      (s.tables.blobs.get? blob).isSome = true ∨ s.BeingDeleted h

/-! ## Steps -/

section Steps

variable {k} {s s' : HubState η} {bodies : List (HubBody η)} {id : Nat} {call : HubCall η}

/-- The call that holds the lock is the only one inside. -/
theorem Sound.eq_of_inside (h : Sound k s bodies) {id' : Nat} {call' : HubCall η}
    (hget : s.calls.get? id = some call) (hin : call.inside = true)
    (hget' : s.calls.get? id' = some call') (hin' : call'.inside = true) : id = id' :=
  Option.some.inj ((h.holder id call hget hin).symm.trans (h.holder id' call' hget' hin'))

variable {entry : Entry η} {obj : SignedObject η} {now : String}

/-- A body that fits was not stored before it is. -/
theorem Sound.not_placed (h : Sound k s bodies)
    (hget : s.calls.get? id = some (.storing entry obj)) : ¬ s.Placed bodies obj.body := by
  have hfits := h.fits id _ entry obj hget rfl
  rintro (hnone | hmem | ⟨id', entry', obj', hget', _⟩)
  · rw [hfits.seq] at hnone
    contradiction
  · exact hfits.notMem h.honest hmem
  · have hid := h.eq_of_inside hget rfl hget' rfl
    subst hid
    exact absurd (hget.symm.trans hget') nofun

/-- Nobody else deletes a post that a call goes on deleting. -/
theorem Sound.alone_of_goOn (h : Sound k s bodies) {old : HubCall η}
    (hcalls : s'.calls = s.calls.set id call) (hold : s.calls.get? id = some old)
    (hsame : ∀ p, call.deletes? = some p → old.deletes? = some p) (id₁ id₂ : Nat)
    (call₁ call₂ : HubCall η) (h' : η) (obj₁ obj₂ : SignedObject η)
    (hget₁ : s'.calls.get? id₁ = some call₁) (hget₂ : s'.calls.get? id₂ = some call₂)
    (hdel₁ : call₁.deletes? = some (h', obj₁)) (hdel₂ : call₂.deletes? = some (h', obj₂))
    (hpost : obj₁.body.isPost = true) : id₁ = id₂ := by
  obtain ⟨old₁, hold₁, hdel₁⟩ := deletes_of_goOn hcalls hold hsame hget₁ hdel₁
  obtain ⟨old₂, hold₂, hdel₂⟩ := deletes_of_goOn hcalls hold hsame hget₂ hdel₂
  exact h.alone id₁ id₂ old₁ old₂ h' obj₁ obj₂ hold₁ hold₂ hdel₁ hdel₂ hpost

/-- The call is neither signed nor dropping, and what it deletes it goes on deleting. -/
structure Quiet (s : HubState η) (id : Nat) (call : HubCall η) : Prop where
  object : ∀ old, s.calls.get? id = some old → old.object? = none
  drops : ∀ h obj blobs, s.calls.get? id ≠ some (.dropping h obj blobs)
  ends : ∀ h, s.calls.get? id ≠ some (.deleted h)
  keeps : ∀ old, s.calls.get? id = some old → ∀ p, old.deletes? = some p → call.deletes? = some p
  reads : ∀ h obj, call.deletes? = some (h, obj) →
    (∃ old, s.calls.get? id = some old ∧ old.deletes? = some (h, obj)) ∨
      s.tables.objects.get? h = some obj ∧ (obj.body.isPost = true → ¬ s.BeingDeleted h)

/-- A call goes on without touching the tables. -/
theorem Sound.quiet (h : Sound k s bodies) (hquiet : Quiet s id call)
    (htables : s'.tables = s.tables) (hingested : s'.ingested = s.ingested)
    (hcalls : s'.calls = s.calls.set id call)
    (hlock : s'.lock = s.lock ∨ s.lock = none ∨ s.lock = some id)
    (hin : call.inside = true → s'.lock = some id)
    (hfits : ∀ entry obj, call.object? = some (entry, obj) → Fits k bodies entry obj)
    (hends : ∀ target, call ≠ .deleted target) : Sound k s' bodies := by
  have hself : s'.calls.get? id = some call := by rw [hcalls, Dict.get?_set_self]
  have hcases : ∀ {id' call'}, s'.calls.get? id' = some call' →
      id = id' ∧ call = call' ∨ id ≠ id' ∧ s.calls.get? id' = some call' := by
    intro id' call' hget
    rw [hcalls] at hget
    exact Dict.get?_set_cases hget
  have hplaced : ∀ {body}, s.Placed bodies body → s'.Placed bodies body := by
    refine placed_of_goOn hcalls fun entry obj hget => ?_
    exact absurd (hquiet.object _ hget) nofun
  have hdeleting : ∀ {target}, s.BeingDeleted target → s'.BeingDeleted target :=
    beingDeleted_mono hcalls hquiet.keeps
  have hdropping : ∀ {id' target obj blobs},
      s.calls.get? id' = some (.dropping target obj blobs) →
        s'.calls.get? id' = some (.dropping target obj blobs) := by
    intro id' target obj blobs hget
    exact get?_of_goOn hcalls (hquiet.drops target obj blobs) hget
  constructor
  · rw [htables]
    exact h.key
  · rw [htables]
    exact h.chain
  · exact h.honest
  · rw [htables]
    exact h.keyed
  · rw [htables]
    exact h.signed
  · intro id' call' hget hin'
    rcases hcases hget with ⟨rfl, rfl⟩ | ⟨hne, hget⟩
    · exact hin hin'
    · have hheld := h.holder id' call' hget hin'
      rcases hlock with hsame | hnone | hid
      · rw [hsame, hheld]
      · rw [hnone] at hheld
        contradiction
      · exact absurd (Option.some.inj (hid.symm.trans hheld)) hne
  · intro id' call' entry obj hget hobj
    rcases hcases hget with ⟨_, rfl⟩ | ⟨_, hget⟩
    · exact hfits entry obj hobj
    · exact h.fits id' call' entry obj hget hobj
  · intro target obj hget
    rw [htables] at hget
    exact hplaced (h.placed target obj hget)
  · intro id' call' target obj hget hdeletes
    rw [htables]
    rcases hcases hget with ⟨rfl, rfl⟩ | ⟨_, hget⟩
    · rcases hquiet.reads target obj hdeletes with ⟨old, hold, hdeletes⟩ | ⟨hfound, _⟩
      · obtain ⟨hkey, hbody, hstill⟩ := h.found id old target obj hold hdeletes
        exact ⟨hkey, hplaced hbody, hstill⟩
      · exact ⟨h.keyed target obj hfound, hplaced (h.placed target obj hfound), fun _ => hfound⟩
    · obtain ⟨hkey, hbody, hstill⟩ := h.found id' call' target obj hget hdeletes
      exact ⟨hkey, hplaced hbody, hstill⟩
  · intro id₁ id₂ call₁ call₂ target obj₁ obj₂ hget₁ hget₂ hdel₁ hdel₂ hpost
    rcases hcases hget₁ with ⟨rfl, rfl⟩ | ⟨hne₁, hget₁⟩
    · rcases hcases hget₂ with ⟨rfl, _⟩ | ⟨_, hget₂⟩
      · rfl
      · rcases hquiet.reads target obj₁ hdel₁ with ⟨old, hold, hdeletes⟩ | ⟨_, hnobody⟩
        · exact h.alone id id₂ old call₂ target obj₁ obj₂ hold hget₂ hdeletes hdel₂ hpost
        · exact absurd ⟨id₂, call₂, obj₂, hget₂, hdel₂⟩ (hnobody hpost)
    · rcases hcases hget₂ with ⟨rfl, rfl⟩ | ⟨_, hget₂⟩
      · rcases hquiet.reads target obj₂ hdel₂ with ⟨old, hold, hdeletes⟩ | ⟨hfound, hnobody⟩
        · exact h.alone id₁ id call₁ old target obj₁ obj₂ hget₁ hold hdel₁ hdeletes hpost
        · have hstill := (h.found id₁ call₁ target obj₁ hget₁ hdel₁).2.2 hpost
          have heq := Option.some.inj (hstill.symm.trans hfound)
          exact absurd ⟨id₁, call₁, obj₁, hget₁, hdel₁⟩ (hnobody (heq ▸ hpost))
      · exact h.alone id₁ id₂ call₁ call₂ target obj₁ obj₂ hget₁ hget₂ hdel₁ hdel₂ hpost
  · intro tomb htomb body htarget hpost
    rw [htables]
    obtain ⟨hbody, hgone⟩ := h.buried tomb htomb body htarget hpost
    refine ⟨hplaced hbody, hgone.imp_right ?_⟩
    rintro ⟨id', obj, blobs, hget⟩
    exact ⟨id', obj, blobs, hdropping hget⟩
  · exact h.once
  · intro id' target hget
    rw [htables]
    rcases hcases hget with ⟨_, rfl⟩ | ⟨_, hget⟩
    · exact absurd rfl (hends target)
    · obtain ⟨hgone, body, hkey, hbody⟩ := h.gone id' target hget
      exact ⟨hgone, body, hkey, hplaced hbody⟩
  · intro target obj hget hpost blob hblob hmem
    rw [htables] at hget ⊢
    rw [hingested] at hmem
    exact (h.stocked target obj hget hpost blob hblob hmem).imp_right hdeleting

/-- The object is stored. -/
theorem Sound.store (hlawful : k.Lawful) (h : Sound k s bodies)
    (hget : s.calls.get? id = some (.storing entry obj))
    (hstocks : obj.body.isPost = true → s.Stocks obj.body) :
    Sound k ((s.withTables (s.tables.insertObject (k.objectHash obj.body) obj)).goOn id
      (.indexing entry obj)) bodies := by
  have hfits := h.fits id _ entry obj hget rfl
  have hfresh := h.not_placed hget
  have hsame : ∀ p, (HubCall.indexing entry obj).deletes? = some p →
      (HubCall.storing entry obj).deletes? = some p := by
    intro p hdeletes
    rw [← HubCall.deletes?_indexing]
    exact hdeletes
  have hunused : ∀ {body}, s.Placed bodies body → k.objectHash obj.body ≠ k.objectHash body := by
    intro body hbody heq
    rw [← hlawful.objectHash_injective heq] at hbody
    exact hfresh hbody
  have hnone : s.tables.objects.get? (k.objectHash obj.body) = none := by
    by_contra hsome
    obtain ⟨old, hold⟩ := Option.ne_none_iff_exists'.mp hsome
    exact hunused (h.placed _ old hold) (h.keyed _ old hold)
  have hobjects : ∀ h', (s.tables.insertObject (k.objectHash obj.body) obj).objects.get? h' =
      if k.objectHash obj.body = h' then some obj else s.tables.objects.get? h' := by
    intro h'
    rw [HubTables.get?_insertObject, hnone]
    rfl
  have hstored : ∀ {h' old}, s.tables.objects.get? h' = some old →
      (s.tables.insertObject (k.objectHash obj.body) obj).objects.get? h' = some old := by
    intro h' old hold
    rw [hobjects, if_neg, hold]
    rintro rfl
    rw [hnone] at hold
    contradiction
  have habsent : ∀ {body}, s.Placed bodies body →
      s.tables.objects.get? (k.objectHash body) = none →
        (s.tables.insertObject (k.objectHash obj.body) obj).objects.get? (k.objectHash body) =
          none := by
    intro body hbody habsent
    rw [hobjects, if_neg (hunused hbody), habsent]
  have hread : ∀ {h' found},
      (s.tables.insertObject (k.objectHash obj.body) obj).objects.get? h' = some found →
        k.objectHash obj.body = h' ∧ obj = found ∨ s.tables.objects.get? h' = some found := by
    intro h' found hfound
    rw [hobjects] at hfound
    split at hfound
    · rename_i heq
      exact Or.inl ⟨heq, Option.some.inj hfound⟩
    · exact Or.inr hfound
  have hplaced : ∀ {body}, s.Placed bodies body →
      ((s.withTables (s.tables.insertObject (k.objectHash obj.body) obj)).goOn id
        (.indexing entry obj)).Placed bodies body := by
    refine placed_of_goOn rfl fun entry' obj' => ?_
    rw [hget]
    nofun
  constructor
  · simpa [HubTables.resolvedKey, withTables, goOn] using h.key
  · simpa [withTables, goOn] using h.chain
  · exact h.honest
  · intro h' found hfound
    rcases hread hfound with ⟨rfl, rfl⟩ | hfound
    · rfl
    · exact h.keyed h' found hfound
  · intro h' found hfound hseq
    rcases hread hfound with ⟨_, rfl⟩ | hfound
    · exact ⟨hfits.signed, hfits.author⟩
    · exact h.signed h' found hfound hseq
  · intro id' call' hget' hin
    rcases get?_cases rfl hget' with ⟨rfl, _⟩ | ⟨_, hget'⟩
    · exact h.holder id _ hget rfl
    · exact h.holder id' call' hget' hin
  · intro id' call' entry' obj' hget' hobj
    rcases get?_cases rfl hget' with ⟨_, rfl⟩ | ⟨_, hget'⟩
    · cases hobj
      exact hfits
    · exact h.fits id' call' entry' obj' hget' hobj
  · intro h' found hfound
    rcases hread hfound with ⟨_, rfl⟩ | hfound
    · exact Or.inr (Or.inr ⟨id, entry, obj, Dict.get?_set_self _ _ _, rfl⟩)
    · exact hplaced (h.placed h' found hfound)
  · intro id' call' h' found hget' hdeletes
    obtain ⟨old, hold, hdeletes⟩ := deletes_of_goOn rfl hget hsame hget' hdeletes
    obtain ⟨hkey, hbody, hstill⟩ := h.found id' old h' found hold hdeletes
    exact ⟨hkey, hplaced hbody, fun hpost => hstored (hstill hpost)⟩
  · exact h.alone_of_goOn rfl hget hsame
  · intro tomb htomb body htarget hpost
    obtain ⟨hbody, hgone⟩ := h.buried tomb htomb body htarget hpost
    refine ⟨hplaced hbody, ?_⟩
    rcases hgone with hgone | ⟨id', found, blobs, hget'⟩
    · exact Or.inl (habsent hbody hgone)
    · refine Or.inr ⟨id', found, blobs, get?_of_goOn rfl ?_ hget'⟩
      exact fun heq => absurd (hget.symm.trans heq) nofun
  · exact h.once
  · intro id' h' hget'
    rcases get?_cases rfl hget' with ⟨_, heq⟩ | ⟨_, hget'⟩
    · contradiction
    · obtain ⟨hgone, body, rfl, hbody⟩ := h.gone id' h' hget'
      exact ⟨habsent hbody hgone, body, rfl, hplaced hbody⟩
  · intro h' found hfound hpost blob hblob hmem
    simp only [withTables, goOn, HubTables.blobs_insertObject]
    rcases hread hfound with ⟨_, rfl⟩ | hfound
    · exact Or.inl (hstocks hpost blob hblob hmem)
    · refine (h.stocked h' found hfound hpost blob hblob hmem).imp_right ?_
      refine beingDeleted_mono rfl fun old hold p hdeletes => ?_
      rw [Option.some.inj (hold.symm.trans hget)] at hdeletes
      rw [HubCall.deletes?_indexing]
      exact hdeletes

/-- The row is inserted, and the lock is given back. -/
theorem Sound.index (hlawful : k.Lawful) (h : Sound k s bodies)
    (hget : s.calls.get? id = some (.indexing entry obj)) :
    Sound k ((s.withTables (s.tables.insertRow (rowOf k obj.body))).release id
      (HubCall.afterRow k obj entry)) (bodies ++ [obj.body]) := by
  have hfits := h.fits id _ entry obj hget rfl
  have hinside : ∀ {id' call'}, s.calls.get? id' = some call' → call'.inside = true → id = id' :=
    fun hget' hin => h.eq_of_inside hget rfl hget' hin
  have hsame : ∀ p, (HubCall.afterRow k obj entry).deletes? = some p →
      (HubCall.indexing entry obj).deletes? = some p := by
    cases entry with
    | post draft => exact nofun
    | tombstone target found => exact fun _ hdeletes => hdeletes
  have hreturns : (HubCall.afterRow k obj entry).inside = false ∧
      (HubCall.afterRow k obj entry).object? = none := by
    cases entry <;> exact ⟨rfl, rfl⟩
  have hplaced : ∀ {body}, s.Placed bodies body →
      ((s.withTables (s.tables.insertRow (rowOf k obj.body))).release id
        (HubCall.afterRow k obj entry)).Placed (bodies ++ [obj.body]) body := by
    intro body hbody
    refine placed_mono (fun _ => List.mem_append_left _) (fun id' entry' obj' hget' => ?_) hbody
    obtain rfl := hinside hget' rfl
    have heq : HubCall.indexing entry obj = .indexing entry' obj' :=
      Option.some.inj (hget.symm.trans hget')
    cases heq
    exact Or.inl (List.mem_append_right _ List.mem_cons_self)
  have hdropping : ∀ {id' h' found blobs},
      s.calls.get? id' = some (.dropping h' found blobs) →
        (s.calls.set id (HubCall.afterRow k obj entry)).get? id' =
          some (.dropping h' found blobs) := by
    intro id' h' found blobs hget'
    refine Dict.get?_set_of_get?_ne _ ?_ hget'
    rw [hget]
    nofun
  constructor
  · simpa [HubTables.resolvedKey, withTables, release, goOn] using h.key
  · have hnew := key_notMem h.chain h.honest hfits
    rw [List.map_append, ← h.chain]
    exact HubTables.chain_insertRow hnew
  · exact isChain_append h.honest hfits
  · simpa [withTables, release, goOn] using h.keyed
  · simpa [withTables, release, goOn] using h.signed
  · intro id' call' hget' hin
    rcases get?_cases rfl hget' with ⟨_, rfl⟩ | ⟨hne, hget'⟩
    · rw [hreturns.1] at hin
      contradiction
    · exact absurd (hinside hget' hin) hne
  · intro id' call' entry' obj' hget' hobj
    rcases get?_cases rfl hget' with ⟨_, rfl⟩ | ⟨hne, hget'⟩
    · rw [hreturns.2] at hobj
      contradiction
    · have hin : call'.inside = true := by
        cases call' <;> first | rfl | contradiction
      exact absurd (hinside hget' hin) hne
  · intro h' found hfound
    rw [show ((s.withTables (s.tables.insertRow (rowOf k obj.body))).release id
      (HubCall.afterRow k obj entry)).tables.objects = s.tables.objects from
        HubTables.objects_insertRow _ _] at hfound
    exact hplaced (h.placed h' found hfound)
  · intro id' call' h' found hget' hdeletes
    obtain ⟨old, hold, hdeletes⟩ := deletes_of_goOn rfl hget hsame hget' hdeletes
    obtain ⟨hkey, hbody, hstill⟩ := h.found id' old h' found hold hdeletes
    refine ⟨hkey, hplaced hbody, ?_⟩
    simpa [withTables, release, goOn] using hstill
  · exact h.alone_of_goOn rfl hget hsame
  · intro tomb htomb body htarget hpost
    rw [show ((s.withTables (s.tables.insertRow (rowOf k obj.body))).release id
      (HubCall.afterRow k obj entry)).tables.objects = s.tables.objects from
        HubTables.objects_insertRow _ _]
    rcases List.mem_append.mp htomb with hold | hnew
    · obtain ⟨hbody, hgone⟩ := h.buried tomb hold body htarget hpost
      refine ⟨hplaced hbody, hgone.imp_right ?_⟩
      rintro ⟨id', found, blobs, hget'⟩
      exact ⟨id', found, blobs, hdropping hget'⟩
    · rw [List.mem_singleton.mp hnew, hfits.target] at htarget
      cases entry with
      | post draft => contradiction
      | tombstone target found =>
        obtain rfl := Option.some.inj htarget
        obtain ⟨hkey, hbody, _⟩ := h.found id _ _ found hget rfl
        rw [← hlawful.objectHash_injective hkey] at hbody
        exact ⟨hplaced hbody, Or.inr ⟨id, found, found.body.blobs, Dict.get?_set_self _ _ _⟩⟩
  · refine List.pairwise_append.mpr ⟨h.once, List.pairwise_singleton _ _, ?_⟩
    intro tomb htomb new hnew body hpost htarget hagain
    rw [List.mem_singleton.mp hnew, hfits.target] at hagain
    cases entry with
    | post draft => contradiction
    | tombstone target found =>
      obtain rfl := Option.some.inj hagain
      obtain ⟨hkey, _, hstill⟩ := h.found id _ _ found hget rfl
      have hbody := hlawful.objectHash_injective hkey
      rw [← hbody] at hstill
      obtain ⟨_, hgone | ⟨id', found', blobs, hget'⟩⟩ :=
        h.buried tomb htomb body htarget hpost
      · exact absurd (hgone.symm.trans (hstill hpost)) nofun
      · have hid := h.alone id id' _ _ _ found found' hget hget' rfl rfl (hbody ▸ hpost)
        subst hid
        exact absurd (hget.symm.trans hget') nofun
  · intro id' h' hget'
    rcases get?_cases rfl hget' with ⟨_, heq⟩ | ⟨_, hget'⟩
    · cases entry <;> contradiction
    · obtain ⟨hgone, body, hkey, hbody⟩ := h.gone id' h' hget'
      refine ⟨?_, body, hkey, hplaced hbody⟩
      simpa [withTables, release, goOn] using hgone
  · intro h' found hfound hpost blob hblob hmem
    simp only [withTables, release, goOn, HubTables.objects_insertRow] at hfound
    simp only [withTables, release, goOn, HubTables.blobs_insertRow]
    refine (h.stocked h' found hfound hpost blob hblob hmem).imp_right ?_
    refine beingDeleted_mono rfl fun old hold p hdeletes => ?_
    rw [Option.some.inj (hold.symm.trans hget)] at hdeletes
    cases entry with
    | post draft => contradiction
    | tombstone target found => exact hdeletes

section Drops

variable {target : η} {found : SignedObject η} {blob : String} {blobs : List String}

/-- A blob is dropped that no post needs. -/
theorem Sound.dropBlob (h : Sound k s bodies)
    (hget : s.calls.get? id = some (.dropping target found (blob :: blobs)))
    (hunused : s.DropsUnused blob) :
    Sound k ((s.withTables (s.tables.dropBlob blob)).goOn id (.dropping target found blobs))
      bodies := by
  have hplaced : ∀ {body}, s.Placed bodies body →
      ((s.withTables (s.tables.dropBlob blob)).goOn id (.dropping target found blobs)).Placed
        bodies body := by
    refine placed_of_goOn rfl fun entry obj => ?_
    rw [hget]
    nofun
  have hdeleting : ∀ {h'}, s.BeingDeleted h' → ((s.withTables (s.tables.dropBlob blob)).goOn id
      (.dropping target found blobs)).BeingDeleted h' := by
    refine beingDeleted_mono rfl fun old hold p hdeletes => ?_
    rw [Option.some.inj (hold.symm.trans hget)] at hdeletes
    exact hdeletes
  have hsame : ∀ p, (HubCall.dropping target found blobs).deletes? = some p →
      (HubCall.dropping target found (blob :: blobs)).deletes? = some p := fun _ hp => hp
  refine ⟨h.key, h.chain, h.honest, h.keyed, h.signed, ?_, ?_,
    fun h' obj hobj => hplaced (h.placed h' obj hobj), ?_, ?_, ?_, h.once, ?_, ?_⟩
  · intro id' call' hget' hin
    rcases get?_cases rfl hget' with ⟨_, rfl⟩ | ⟨_, hget'⟩
    · contradiction
    · exact h.holder id' call' hget' hin
  · intro id' call' entry obj hget' hobj
    rcases get?_cases rfl hget' with ⟨_, rfl⟩ | ⟨_, hget'⟩
    · contradiction
    · exact h.fits id' call' entry obj hget' hobj
  · intro id' call' h' obj hget' hdeletes
    obtain ⟨old, hold, hdeletes⟩ := deletes_of_goOn rfl hget hsame hget' hdeletes
    obtain ⟨hkey, hbody, hstill⟩ := h.found id' old h' obj hold hdeletes
    exact ⟨hkey, hplaced hbody, hstill⟩
  · exact h.alone_of_goOn rfl hget hsame
  · intro tomb htomb body htarget hpost
    obtain ⟨hbody, hgone⟩ := h.buried tomb htomb body htarget hpost
    refine ⟨hplaced hbody, hgone.imp_right ?_⟩
    rintro ⟨id', obj, blobs', hget'⟩
    by_cases hid : id = id'
    · subst hid
      have heq : HubCall.dropping target found (blob :: blobs) = .dropping _ obj blobs' :=
        Option.some.inj (hget.symm.trans hget')
      cases heq
      exact ⟨id, found, blobs, Dict.get?_set_self _ _ _⟩
    · exact ⟨id', obj, blobs', (Dict.get?_set_of_ne _ _ hid).trans hget'⟩
  · intro id' h' hget'
    rcases get?_cases rfl hget' with ⟨_, heq⟩ | ⟨_, hget'⟩
    · contradiction
    · obtain ⟨hgone, body, hkey, hbody⟩ := h.gone id' h' hget'
      exact ⟨hgone, body, hkey, hplaced hbody⟩
  · intro h' obj hobj hpost b hb hmem
    rcases h.stocked h' obj hobj hpost b hb hmem with hstored | hdeleted
    · by_cases hblob : blob = b
      · subst hblob
        exact Or.inr (hdeleting (hunused hstored h' obj hobj hpost hb))
      · refine Or.inl ?_
        change ((s.tables.blobs.pop blob).get? b).isSome = true
        rwa [Dict.get?_pop_of_ne _ hblob]
    · exact Or.inr (hdeleting hdeleted)

/-- The body is dropped, and the deletion returns. -/
theorem Sound.dropObject (h : Sound k s bodies)
    (hget : s.calls.get? id = some (.dropping target found [])) :
    Sound k ((s.withTables (s.tables.dropObject target)).goOn id (.deleted target)) bodies := by
  obtain ⟨hkey, hfound, _⟩ := h.found id _ target found hget rfl
  have hplaced : ∀ {body}, s.Placed bodies body →
      ((s.withTables (s.tables.dropObject target)).goOn id (.deleted target)).Placed
        bodies body := by
    refine placed_of_goOn rfl fun entry obj => ?_
    rw [hget]
    nofun
  have hread : ∀ {h' obj}, (s.tables.objects.pop target).get? h' = some obj →
      target ≠ h' ∧ s.tables.objects.get? h' = some obj := fun hobj => Dict.get?_pop_cases hobj
  have habsent : ∀ {h'}, s.tables.objects.get? h' = none →
      (s.tables.objects.pop target).get? h' = none := by
    intro h' hnone
    rw [Dict.get?_pop, hnone, ite_self]
  have hsame : ∀ p, (HubCall.deleted target : HubCall η).deletes? = some p →
      (HubCall.dropping target found []).deletes? = some p := nofun
  refine ⟨h.key, h.chain, h.honest, fun h' obj hobj => h.keyed h' obj (hread hobj).2,
    fun h' obj hobj => h.signed h' obj (hread hobj).2, ?_, ?_,
    fun h' obj hobj => hplaced (h.placed h' obj (hread hobj).2), ?_, ?_, ?_, h.once, ?_, ?_⟩
  · intro id' call' hget' hin
    rcases get?_cases rfl hget' with ⟨_, rfl⟩ | ⟨_, hget'⟩
    · contradiction
    · exact h.holder id' call' hget' hin
  · intro id' call' entry obj hget' hobj
    rcases get?_cases rfl hget' with ⟨_, rfl⟩ | ⟨_, hget'⟩
    · contradiction
    · exact h.fits id' call' entry obj hget' hobj
  · intro id' call' h' obj hget' hdeletes
    rcases get?_cases rfl hget' with ⟨_, rfl⟩ | ⟨hne, hget'⟩
    · contradiction
    · obtain ⟨hkey', hbody, hstill⟩ := h.found id' call' h' obj hget' hdeletes
      refine ⟨hkey', hplaced hbody, fun hpost => ?_⟩
      -- Nobody else is deleting a post that this call deletes.
      have htarget : target ≠ h' := by
        rintro rfl
        exact hne (h.alone id' id _ _ target obj found hget' hget hdeletes rfl hpost).symm
      exact (Dict.get?_pop_of_ne _ htarget).trans (hstill hpost)
  · exact h.alone_of_goOn rfl hget hsame
  · intro tomb htomb body htarget hpost
    obtain ⟨hbody, hgone⟩ := h.buried tomb htomb body htarget hpost
    refine ⟨hplaced hbody, ?_⟩
    rcases hgone with hgone | ⟨id', obj, blobs', hget'⟩
    · exact Or.inl (habsent hgone)
    · by_cases hid : id = id'
      · subst hid
        have heq : HubCall.dropping target found [] = .dropping _ obj blobs' :=
          Option.some.inj (hget.symm.trans hget')
        cases heq
        exact Or.inl (Dict.get?_pop_self _ _)
      · exact Or.inr ⟨id', obj, blobs', (Dict.get?_set_of_ne _ _ hid).trans hget'⟩
  · intro id' h' hget'
    rcases get?_cases rfl hget' with ⟨_, heq⟩ | ⟨_, hget'⟩
    · cases heq
      exact ⟨Dict.get?_pop_self _ _, found.body, hkey, hplaced hfound⟩
    · obtain ⟨hgone, body, hkey', hbody⟩ := h.gone id' h' hget'
      exact ⟨habsent hgone, body, hkey', hplaced hbody⟩
  · intro h' obj hobj hpost b hb hmem
    obtain ⟨htarget, hobj⟩ := hread hobj
    refine (h.stocked h' obj hobj hpost b hb hmem).imp_right ?_
    rintro ⟨id', call', obj', hget', hdeletes⟩
    have hne : id ≠ id' := by
      rintro rfl
      rw [Option.some.inj (hget'.symm.trans hget)] at hdeletes
      exact htarget (congrArg Prod.fst (Option.some.inj hdeletes))
    exact ⟨id', call', obj', (Dict.get?_set_of_ne _ _ hne).trans hget', hdeletes⟩

end Drops

/-- A blob is stored. -/
theorem Sound.ingested (h : Sound k s bodies) (data : List UInt8) (mime : Option String) :
    Sound k (s.ingest k data mime) bodies := by
  have hobjects : (s.ingest k data mime).tables.objects = s.tables.objects :=
    HubTables.objects_insertBlob _ _ _
  constructor
  · simpa [HubTables.resolvedKey, ingest] using h.key
  · simpa [ingest] using h.chain
  · exact h.honest
  · rw [hobjects]
    exact h.keyed
  · rw [hobjects]
    exact h.signed
  · exact h.holder
  · exact h.fits
  · rw [hobjects]
    exact h.placed
  · rw [hobjects]
    exact h.found
  · exact h.alone
  · rw [hobjects]
    exact h.buried
  · exact h.once
  · rw [hobjects]
    exact h.gone
  · intro h' obj hobj hpost blob hblob hmem
    rw [hobjects] at hobj
    have hstored : ∀ b, ((s.ingest k data mime).tables.blobs.get? b).isSome = true ↔
        k.blobHash data = b ∨ (s.tables.blobs.get? b).isSome = true :=
      fun b => HubTables.isSome_insertBlob s.tables _ b _
    rcases List.mem_cons.mp hmem with rfl | hmem
    · exact Or.inl ((hstored _).mpr (Or.inl rfl))
    · exact (h.stocked h' obj hobj hpost blob hblob hmem).imp_left fun hold =>
        (hstored blob).mpr (Or.inr hold)

/-- A call of its own does not disturb the others. -/
theorem Sound.called (h : Sound k s bodies) (call : HubCall η) (hin : call.inside = false)
    (hobject : call.object? = none) (hdeletes : call.deletes? = none)
    (hends : ∀ target, call ≠ .deleted target)
    (hstep : (if (s.calls.get? id).isSome then none else some (s.goOn id call)) = some s') :
    Sound k s' bodies := by
  by_cases hsome : (s.calls.get? id).isSome = true
  · rw [if_pos hsome] at hstep
    contradiction
  · rw [if_neg hsome] at hstep
    cases hstep
    have hnone := Option.not_isSome_iff_eq_none.mp hsome
    have hquiet : Quiet s id call := by
      refine ⟨?_, ?_, ?_, ?_, ?_⟩
      · exact fun old hold => absurd (hnone.symm.trans hold) nofun
      · exact fun _ _ _ hold => absurd (hnone.symm.trans hold) nofun
      · exact fun _ hold => absurd (hnone.symm.trans hold) nofun
      · exact fun old hold => absurd (hnone.symm.trans hold) nofun
      · intro target obj hnew
        rw [hdeletes] at hnew
        contradiction
    refine h.quiet hquiet rfl rfl rfl (Or.inl rfl) (fun hin' => ?_) (fun entry obj hobj => ?_) hends
    · rw [hin] at hin'
      contradiction
    · rw [hobject] at hobj
      contradiction

/-- Where a call stands before it is signed. -/
theorem quiet_of_entry {old : HubCall η}
    (hold : old = .waiting entry ∨ old = .positioning entry) (hget : s.calls.get? id = some old)
    (hkeep : ∀ p, (HubCall.waiting entry).deletes? = some p ↔ call.deletes? = some p) :
    Quiet s id call := by
  have hdeletes : old.deletes? = (HubCall.waiting entry).deletes? := by
    rcases hold with rfl | rfl
    · rfl
    · exact HubCall.deletes?_positioning entry
  refine ⟨?_, ?_, ?_, ?_, ?_⟩
  · intro old' hget'
    rw [Option.some.inj (hget'.symm.trans hget)]
    rcases hold with rfl | rfl <;> rfl
  · intro h obj blobs hget'
    have heq := Option.some.inj (hget.symm.trans hget')
    rcases hold with rfl | rfl <;> contradiction
  · intro h hget'
    have heq := Option.some.inj (hget.symm.trans hget')
    rcases hold with rfl | rfl <;> contradiction
  · intro old' hget' p hp
    rw [Option.some.inj (hget'.symm.trans hget), hdeletes] at hp
    exact (hkeep p).mp hp
  · intro h obj hnew
    refine Or.inl ⟨old, hget, ?_⟩
    rw [hdeletes]
    exact (hkeep _).mpr hnew

theorem Sound.find (h : Sound k s bodies) {target : η}
    (hget : s.calls.get? id = some (.finding target)) (hfree : s.FindsOnce target)
    (hstep : s.stepCall k id now (.finding target) = some s') : Sound k s' bodies := by
  have hold : ∀ {P : HubCall η → Prop}, P (.finding target) →
      ∀ old, s.calls.get? id = some old → P old := by
    intro P hP old hget'
    rw [Option.some.inj (hget'.symm.trans hget)]
    exact hP
  have hquiet : ∀ call : HubCall η, (∀ h obj, call.deletes? = some (h, obj) →
      s.tables.objects.get? h = some obj ∧ (obj.body.isPost = true → ¬ s.BeingDeleted h)) →
        Quiet s id call := by
    intro call hreads
    refine ⟨hold (P := fun old => old.object? = none) rfl, ?_, ?_,
      hold (P := fun old => ∀ p, old.deletes? = some p → call.deletes? = some p)
        (fun _ hreads => nomatch hreads),
      fun h obj hnew => Or.inr (hreads h obj hnew)⟩
    · exact fun _ _ _ hget' => absurd (hget.symm.trans hget') nofun
    · exact fun _ hget' => absurd (hget.symm.trans hget') nofun
  unfold stepCall at hstep
  cases hfound : s.tables.getObject target with
  | none =>
    simp only [hfound, Option.some.injEq] at hstep
    subst hstep
    exact h.quiet (hquiet .refused fun _ _ hreads => nomatch hreads) rfl rfl rfl (Or.inl rfl)
      nofun (fun _ _ hobject => nomatch hobject) nofun
  | some found =>
    simp only [hfound, Option.some.injEq] at hstep
    subst hstep
    refine h.quiet (hquiet _ ?_) rfl rfl rfl (Or.inl rfl) nofun
      (fun _ _ hobject => nomatch hobject) nofun
    rintro _ _ ⟨⟩
    exact ⟨hfound, hfree found hfound⟩

theorem Sound.position (hlawful : k.Lawful) (h : Sound k s bodies)
    (hget : s.calls.get? id = some (.positioning entry))
    (hstep : s.stepCall k id now (.positioning entry) = some s') : Sound k s' bodies := by
  have hlock := h.holder id _ hget rfl
  simp only [stepCall] at hstep
  cases hbuild : entry.build k.signingFingerprint
      (nextChainPosition s.tables k.signingFingerprint) now with
  | none =>
    simp only [hbuild, Option.some.injEq] at hstep
    subst hstep
    cases entry with
    | post draft =>
      refine h.quiet (quiet_of_entry (Or.inr rfl) hget fun p => ?_) rfl rfl rfl
        (Or.inr (Or.inr hlock)) nofun (fun _ _ hobject => nomatch hobject) nofun
      simp [HubCall.deletes?]
    | tombstone target found => contradiction
  | some body =>
    have hfits := fits_of_build (nextChainPosition_eq h.chain h.honest) hbuild
    have hchainable : chainable (k.signObject body) = true := by
      have hauthor : body.author ≠ "" := by
        rw [show body.author = k.signingFingerprint from hfits.author]
        exact hlawful.fingerprint_ne_empty
      rw [chainable, Bool.and_eq_true]
      exact ⟨decide_eq_true hauthor, decide_eq_true (hlawful.sign_ne_empty body)⟩
    simp only [hbuild, hchainable, if_true, Option.some.injEq] at hstep
    subst hstep
    refine h.quiet (quiet_of_entry (Or.inr rfl) hget fun p => ?_) rfl rfl rfl (Or.inl rfl)
      (fun _ => hlock) ?_ nofun
    · rw [HubCall.deletes?_storing, HubCall.deletes?_positioning]
    · rintro _ _ ⟨⟩
      exact hfits

/-- A statement of a call, under the condition. -/
theorem Sound.stepCall (hlawful : k.Lawful) (h : Sound k s bodies)
    (hget : s.calls.get? id = some call) (hguard : s.callGuard call)
    (hstep : s.stepCall k id now call = some s') : ∃ bodies', Sound k s' bodies' := by
  cases call with
  | finding target => exact ⟨bodies, h.find hget hguard hstep⟩
  | waiting entry =>
    simp only [HubState.stepCall] at hstep
    by_cases hlock : s.lock = none
    · rw [if_pos hlock] at hstep
      cases hstep
      refine ⟨bodies, h.quiet (quiet_of_entry (Or.inl rfl) hget fun p => ?_) rfl rfl rfl
        (Or.inr (Or.inl hlock)) (fun _ => rfl) (fun _ _ hobject => nomatch hobject) nofun⟩
      rw [HubCall.deletes?_positioning]
    · rw [if_neg hlock] at hstep
      contradiction
  | positioning entry => exact ⟨bodies, h.position hlawful hget hstep⟩
  | storing entry obj =>
    cases hstep
    exact ⟨bodies, h.store hlawful hget hguard⟩
  | indexing entry obj =>
    cases hstep
    exact ⟨_, h.index hlawful hget⟩
  | dropping target found blobs =>
    cases blobs with
    | nil =>
      cases hstep
      exact ⟨bodies, h.dropObject hget⟩
    | cons blob blobs =>
      cases hstep
      exact ⟨bodies, h.dropBlob hget hguard⟩
  | _ => contradiction

/-- A step under the condition keeps what holds. -/
theorem Sound.step (hlawful : k.Lawful) {e : HubEvent η} (h : Sound k s bodies)
    (hguard : s.guard e) (hstep : s.step k e = some s') : ∃ bodies', Sound k s' bodies' := by
  cases e with
  | ingested data mime =>
    cases hstep
    exact ⟨bodies, h.ingested data mime⟩
  | appendCalled id draft =>
    exact ⟨bodies, h.called (.waiting (.post draft)) rfl rfl rfl nofun hstep⟩
  | deleteCalled id target =>
    exact ⟨bodies, h.called (.finding target) rfl rfl rfl nofun hstep⟩
  | stepped id now =>
    obtain ⟨call, hget, hstep⟩ := Option.bind_eq_some_iff.mp hstep
    exact h.stepCall hlawful hget (hguard call hget) hstep

end Steps

end HubState

end TinyAgentOS.Hub
