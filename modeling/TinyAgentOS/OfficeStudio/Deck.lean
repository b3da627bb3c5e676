import TinyAgentOS.Library.JsArray
import TinyAgentOS.Library.JsJson
import TinyAgentOS.Library.Transition

/-!
# Decks of slides

A deck is kept as a JSON text.  What is read back is checked slide by slide; a slide keeps the
members that the check does not ask for, and the slides of a deck may share an id.

Main results:

- `movesOne_reorderSlide`: one slide is moved and the others stay in order.
- `parse_serialize_iff`: the decks that are read back as they were written.
- `deckLaw_iff`: the runs in which a deck is never empty, loses one slide at a time and can be
  read back.
-/

namespace TinyAgentOS.OfficeStudio

open Collections Js Transition

variable {ν : Type}

/-! ## Slides -/

inductive SlideLayout where
  | title
  | titleContent
  | twoColumn
  | sectionHeader
  | blank
deriving DecidableEq

def SlideLayout.name : SlideLayout → JsString
  | title => ofString "title"
  | titleContent => ofString "title-content"
  | twoColumn => ofString "two-column"
  | sectionHeader => ofString "section-header"
  | blank => ofString "blank"

def layouts : List SlideLayout :=
  [.title, .titleContent, .twoColumn, .sectionHeader, .blank]

def isStrings : Option (JsonValue ν) → Bool
  | some (.array items) => items.all fun v => isString (some v)
  | _ => false

def isLayout : Option (JsonValue ν) → Bool
  | some (.string s) => layouts.any fun l => l.name = s
  | _ => false

/-- What is no object has no members, an array among them. -/
def isValidSlide : JsonValue ν → Bool
  | .object members =>
    isString (prop members "id") && isString (prop members "title") &&
      isString (prop members "body") && isStrings (prop members "bullets") &&
      ((prop members "imageDataUri").isNone || isString (prop members "imageDataUri")) &&
      ((prop members "notes").isNone || isString (prop members "notes")) &&
      isLayout (prop members "layout")
  | _ => false

/-- An object that passed the check.  Like every object it has no two members of one name. -/
structure Slide (ν : Type) where
  members : List (JsString × JsonValue ν)
  valid : isValidSlide (.object members) = true
  distinct : (JsonValue.object members).distinct = true

namespace Slide

def value (s : Slide ν) : JsonValue ν :=
  .object s.members

def id (s : Slide ν) : JsString :=
  match prop s.members "id" with
  | some (.string id) => id
  | _ => []

end Slide

def toSlide? : JsonValue ν → Option (Slide ν)
  | .object members =>
    if h : isValidSlide (.object members) = true ∧ (JsonValue.object members).distinct = true then
      some ⟨members, h.1, h.2⟩
    else none
  | _ => none

/-- `newSlide`, with the id that is drawn for it. -/
def newSlide (layout : SlideLayout) (id : JsString) : Slide ν where
  members :=
    [(ofString "id", .string id), (ofString "layout", .string layout.name),
      (ofString "title", .string []), (ofString "body", .string []),
      (ofString "bullets", .array [])]
  valid := by cases layout <;> rfl
  distinct := by
    simp only [JsonValue.distinct, distinctMembers, distinctItems, Bool.and_true,
      decide_eq_true_eq, List.map_cons, List.map_nil]
    decide

/-- What a patch sets; of the optional members it may say that they are `undefined`. -/
inductive SlideField where
  | layout (layout : SlideLayout)
  | title (title : JsString)
  | body (body : JsString)
  | bullets (bullets : List JsString)
  | imageDataUri (uri : Option JsString)
  | notes (notes : Option JsString)

namespace SlideField

def name : SlideField → String
  | layout _ => "layout"
  | title _ => "title"
  | body _ => "body"
  | bullets _ => "bullets"
  | imageDataUri _ => "imageDataUri"
  | notes _ => "notes"

def value : SlideField → Option (JsonValue ν)
  | layout l => some (.string l.name)
  | title t => some (.string t)
  | body b => some (.string b)
  | bullets bs => some (.array (bs.map .string))
  | imageDataUri uri => uri.map .string
  | notes n => n.map .string

end SlideField

/-- A member is written; one that is `undefined` is none. -/
def assign (members : List (JsString × JsonValue ν)) (f : SlideField) :
    List (JsString × JsonValue ν) :=
  match f.value with
  | some v => Dict.setIn (ofString f.name) v members
  | none => Dict.popIn (ofString f.name) members

/-- The members that the check asks for. -/
def slideNames : List String :=
  ["id", "title", "body", "bullets", "imageDataUri", "notes", "layout"]

/-- The names of a slide are spelled apart. -/
theorem slideNames_injective : ∀ x ∈ slideNames, ∀ y ∈ slideNames,
    ofString x = ofString y → x = y := by
  decide

theorem SlideField.name_mem (f : SlideField) : f.name ∈ slideNames := by
  cases f <;> simp [name, slideNames]

variable {members : List (JsString × JsonValue ν)}

/-- What a member is after one was written. -/
theorem prop_assign (h : (members.map Prod.fst).Nodup) (f : SlideField) {name : String}
    (hname : name ∈ slideNames) :
    prop (assign members f) name = if f.name = name then f.value else prop members name := by
  have hiff : ofString f.name = ofString name ↔ f.name = name :=
    ⟨slideNames_injective _ f.name_mem _ hname, fun heq => heq ▸ rfl⟩
  cases hvalue : f.value (ν := ν) with
  | some v => simp only [prop, assign, hvalue, Dict.lookupIn_setIn, hiff]
  | none => simp only [prop, assign, hvalue, Dict.lookupIn_popIn _ _ h, hiff]

/-- The name of a layout is one. -/
theorem isLayout_name (l : SlideLayout) : isLayout (ν := ν) (some (.string l.name)) = true := by
  cases l <;> rfl

/-- An array of strings is one. -/
theorem isStrings_map (bs : List JsString) :
    isStrings (ν := ν) (some (.array (bs.map .string))) = true := by
  simp [isStrings, isString]

theorem isString_map (t : Option JsString) : ((t.map (JsonValue.string (ν := ν))).isNone ||
      isString (t.map (JsonValue.string (ν := ν)))) = true := by
  cases t <;> rfl

/-- A slide is a slide after a member was written. -/
theorem valid_assign (hnodup : (members.map Prod.fst).Nodup)
    (h : isValidSlide (.object members) = true)
    (f : SlideField) : isValidSlide (.object (assign members f)) = true := by
  have hprop : ∀ name ∈ slideNames, prop (assign members f) name =
      if f.name = name then f.value else prop members name :=
    fun name hname => prop_assign hnodup f hname
  simp only [slideNames, List.forall_mem_cons] at hprop
  obtain ⟨hid, htitle, hbody, hbullets, huri, hnotes, hlayout, _⟩ := hprop
  simp only [isValidSlide, Bool.and_eq_true] at h
  obtain ⟨⟨⟨⟨⟨⟨h₁, h₂⟩, h₃⟩, h₄⟩, h₅⟩, h₆⟩, h₇⟩ := h
  simp only [isValidSlide, Bool.and_eq_true, hid, htitle, hbody, hbullets, huri, hnotes, hlayout]
  cases f with
  | layout l => exact ⟨⟨⟨⟨⟨⟨h₁, h₂⟩, h₃⟩, h₄⟩, h₅⟩, h₆⟩, isLayout_name l⟩
  | title t => exact ⟨⟨⟨⟨⟨⟨h₁, rfl⟩, h₃⟩, h₄⟩, h₅⟩, h₆⟩, h₇⟩
  | body b => exact ⟨⟨⟨⟨⟨⟨h₁, h₂⟩, rfl⟩, h₄⟩, h₅⟩, h₆⟩, h₇⟩
  | bullets bs => exact ⟨⟨⟨⟨⟨⟨h₁, h₂⟩, h₃⟩, isStrings_map bs⟩, h₅⟩, h₆⟩, h₇⟩
  | imageDataUri uri => exact ⟨⟨⟨⟨⟨⟨h₁, h₂⟩, h₃⟩, h₄⟩, isString_map uri⟩, h₆⟩, h₇⟩
  | notes n => exact ⟨⟨⟨⟨⟨⟨h₁, h₂⟩, h₃⟩, h₄⟩, h₅⟩, isString_map n⟩, h₇⟩

variable {f : SlideField}

/-- What a patch writes holds texts only. -/
theorem value_texts {v : JsonValue ν} (h : f.value = some v) :
    v.distinct = true ∧ ∀ N : JsonNumbers ν, v.finite N = true := by
  have htext : ∀ {t : Option JsString}, t.map JsonValue.string = some v →
      v.distinct = true ∧ ∀ N : JsonNumbers ν, v.finite N = true := by
    intro t ht
    obtain ⟨u, _, rfl⟩ := Option.map_eq_some_iff.mp ht
    exact ⟨rfl, fun _ => rfl⟩
  cases f with
  | layout l => exact htext (t := some l.name) h
  | title t => exact htext (t := some t) h
  | body b => exact htext (t := some b) h
  | imageDataUri | notes => exact htext h
  | bullets bs =>
    cases h
    refine ⟨distinctItems_iff.mpr ?_, fun N => (finiteItems_iff N).mpr ?_⟩
    · intro v hv
      obtain ⟨b, _, rfl⟩ := List.mem_map.mp hv
      rfl
    · intro v hv
      obtain ⟨b, _, rfl⟩ := List.mem_map.mp hv
      rfl

/-- A member is the assigned one, or was there. -/
theorem mem_assign {m : JsString × JsonValue ν} (h : m ∈ assign members f) :
    m ∈ members ∨ f.value = some m.2 := by
  cases hvalue : f.value (ν := ν) with
  | some v =>
    rw [assign, hvalue] at h
    exact (Dict.mem_setIn h).imp_right fun heq => congrArg some (congrArg Prod.snd heq).symm
  | none =>
    rw [assign, hvalue] at h
    exact Or.inl ((Dict.popIn_sublist _ members).subset h)

/-- Assigning keeps the names distinct. -/
theorem distinct_assign (h : (JsonValue.object members).distinct = true) (f : SlideField) :
    (JsonValue.object (assign members f)).distinct = true := by
  simp only [JsonValue.distinct, Bool.and_eq_true, decide_eq_true_eq] at h ⊢
  refine ⟨?_, distinctMembers_iff.mpr ?_⟩
  · cases hvalue : f.value (ν := ν) with
    | some v =>
      rw [assign, hvalue]
      exact Dict.nodup_setIn h.1
    | none =>
      rw [assign, hvalue]
      exact Dict.nodup_popIn h.1
  · intro m hm
    rcases mem_assign hm with hold | hnew
    · exact distinctMembers_iff.mp h.2 m hold
    · exact (value_texts hnew).1

namespace Slide

def assign (s : Slide ν) (f : SlideField) : Slide ν where
  members := OfficeStudio.assign s.members f
  valid := valid_assign (nodup_of_distinct s.distinct) s.valid f
  distinct := distinct_assign s.distinct f

/-- `{ ...s, ...patch }`. -/
def patched (s : Slide ν) (patch : List SlideField) : Slide ν :=
  patch.foldl assign s

end Slide

/-! ## The operations -/

section Slides

variable {α : Type}

def insertSlideAfter (slides : List (Slide ν)) (afterId : Option JsString) (slide : Slide ν) :
    List (Slide ν) :=
  match afterId with
  | none => slides ++ [slide]
  | some afterId =>
    match slides.findIdx? fun s => s.id = afterId with
    | none => slides ++ [slide]
    | some index => slides.take (index + 1) ++ slide :: slides.drop (index + 1)

def addSlide (slides : List (Slide ν)) (afterId : Option JsString) (layout : Option SlideLayout)
    (id : JsString) : List (Slide ν) :=
  insertSlideAfter slides afterId (newSlide (layout.getD .titleContent) id)

def removeSlide (slides : List (Slide ν)) (id : JsString) : List (Slide ν) :=
  if slides.length ≤ 1 then slides else slides.filter fun s => s.id ≠ id

def updateSlide (slides : List (Slide ν)) (id : JsString) (patch : List SlideField) :
    List (Slide ν) :=
  slides.map fun s => if s.id = id then s.patched patch else s

/-- Where there is no slide, an `undefined` is moved: `none`. -/
def reorderSlide (slides : List α) (fromIndex toIndex : JsNumber) : Option (List α) :=
  if fromIndex.lt (.ofNat 0) || (JsNumber.ofNat slides.length).le fromIndex then some slides
  else
    let last : JsNumber := .finite ((slides.length : Int) - 1 : Int)
    let clampedTo := JsNumber.max (.ofNat 0) (JsNumber.min toIndex last)
    if clampedTo.same fromIndex then some slides
    else
      match slides[fromIndex.position slides.length]? with
      | none => none
      | some moved =>
        let next := slides.eraseIdx (fromIndex.position slides.length)
        some (sliceTo next clampedTo ++ moved :: sliceFrom next clampedTo)

/-- The sum of two numbers is what the language makes of it. -/
def moveSlideBy (plus : JsNumber → JsNumber → JsNumber) (slides : List (Slide ν)) (id : JsString)
    (delta : JsNumber) : Option (List (Slide ν)) :=
  match slides.findIdx? fun s => s.id = id with
  | none => some slides
  | some index => reorderSlide slides (.ofNat index) (plus (.ofNat index) delta)

end Slides

/-! ## Decks -/

/-- The version is always one. -/
structure Deck (ν : Type) where
  title : JsString
  slides : List (Slide ν)

def blankDeck (id : JsString) : Deck ν :=
  ⟨ofString "Untitled deck", [newSlide .title id]⟩

def deckValue (N : JsonNumbers ν) (d : Deck ν) : JsonValue ν :=
  .object
    [(ofString "version", .number N.one), (ofString "title", .string d.title),
      (ofString "slides", .array (d.slides.map Slide.value))]

def serializeDeck (N : JsonNumbers ν) (d : Deck ν) : JsString :=
  stringify N (deckValue N d)

/-- The deck of a value, or none if the value is malformed. -/
def deckOf : JsonValue ν → Option (Deck ν)
  | .object members =>
    match prop members "title", prop members "slides" with
    | some (.string title), some (.array slides) =>
      if slides.isEmpty then none
      else (slides.mapM toSlide?).map fun slides => ⟨title, slides⟩
    | _, _ => none
  | _ => none

/-- The id is drawn where a blank deck is made. -/
def parseDeckContent (N : JsonNumbers ν) (content : JsString) (id : JsString) : Deck ν :=
  if trim content = [] then blankDeck id
  else
    match parse N content with
    | none => blankDeck id
    | some parsed => (deckOf parsed).getD (blankDeck id)

/-! ## Runs -/

inductive DeckOp (ν : Type) where
  | insertSlideAfter (afterId : Option JsString) (slide : Slide ν)
  | addSlide (afterId : Option JsString) (layout : Option SlideLayout) (id : JsString)
  | removeSlide (id : JsString)
  | updateSlide (id : JsString) (patch : List SlideField)
  | reorderSlide (fromIndex toIndex : JsNumber)
  | moveSlideBy (id : JsString) (delta : JsNumber)

namespace Deck

def slidesAfter (plus : JsNumber → JsNumber → JsNumber) (slides : List (Slide ν)) :
    DeckOp ν → Option (List (Slide ν))
  | .insertSlideAfter afterId slide => some (insertSlideAfter slides afterId slide)
  | .addSlide afterId layout id => some (addSlide slides afterId layout id)
  | .removeSlide id => some (removeSlide slides id)
  | .updateSlide id patch => some (updateSlide slides id patch)
  | .reorderSlide fromIndex toIndex => reorderSlide slides fromIndex toIndex
  | .moveSlideBy id delta => moveSlideBy plus slides id delta

def step (plus : JsNumber → JsNumber → JsNumber) (d : Deck ν) (op : DeckOp ν) : Option (Deck ν) :=
  (slidesAfter plus d.slides op).map fun slides => { d with slides := slides }

/-! ## What is asked of a deck -/

/-- One thing is moved, and the others keep their order. -/
def MovesOne {α : Type} (xs ys : List α) : Prop :=
  ∃ moved before after before' after', xs = before ++ moved :: after ∧
    ys = before' ++ moved :: after' ∧ before ++ after = before' ++ after'

structure Kept (N : JsonNumbers ν) (d : Deck ν) : Prop where
  nonempty : d.slides ≠ []
  roundTrip : ∀ id, parseDeckContent N (serializeDeck N d) id = d

def StepKept (d : Deck ν) (op : DeckOp ν) (d' : Deck ν) : Prop :=
  match op with
  | .removeSlide _ => d'.slides.Sublist d.slides ∧ d.slides.length ≤ d'.slides.length + 1
  | .reorderSlide _ _ | .moveSlideBy _ _ =>
    d'.slides.Perm d.slides ∧ (d'.slides = d.slides ∨ MovesOne d.slides d'.slides)
  | _ => True

/-- Every operation has a result, and in every state the deck has a slide and is read back. -/
def DeckLaw (N : JsonNumbers ν) (plus : JsNumber → JsNumber → JsNumber) (content id : JsString)
    (ops : List (DeckOp ν)) : Prop :=
  (run (step plus) (parseDeckContent N content id) ops).isSome = true ∧
  (∀ before after d, ops = before ++ after →
    run (step plus) (parseDeckContent N content id) before = some d → d.Kept N) ∧
  EveryStep (step plus) StepKept (parseDeckContent N content id) ops

/-- No slide holds a number that is not finite. -/
def Finite (N : JsonNumbers ν) (d : Deck ν) : Prop :=
  ∀ s ∈ d.slides, s.value.finite N = true

/-- The slides of a content that is a deck hold finite numbers only. -/
def FiniteContent (N : JsonNumbers ν) (content : JsString) : Prop :=
  ∀ members slides, trim content ≠ [] → parse N content = some (.object members) →
    isString (prop members "title") = true → prop members "slides" = some (.array slides) →
    slides.all isValidSlide = true → ∀ v ∈ slides, v.finite N = true

/-- No two slides go at once, and no slide comes with a number that is not finite. -/
def Careful (N : JsonNumbers ν) (d : Deck ν) : DeckOp ν → Prop
  | .removeSlide id => d.slides.length ≤ 1 ∨ (d.slides.countP fun s => s.id = id) ≤ 1
  | .insertSlideAfter _ slide => slide.value.finite N = true
  | _ => True

end Deck

/-! ## Moving a slide -/

namespace Deck

section Moving

variable {α : Type}

variable {xs : List α}

theorem MovesOne.perm {ys : List α} (h : MovesOne xs ys) : ys.Perm xs := by
  obtain ⟨moved, before, after, before', after', rfl, rfl, hothers⟩ := h
  calc
    List.Perm (before' ++ moved :: after') (moved :: (before' ++ after')) := List.perm_middle
    _ = moved :: (before ++ after) := by rw [hothers]
    List.Perm _ (before ++ moved :: after) := List.perm_middle.symm

/-- The slide at an index is moved to another, and the others stay in order. -/
theorem movesOne_reorderSlide {ys : List α} {fromIndex toIndex : JsNumber}
    (h : reorderSlide xs fromIndex toIndex = some ys) : ys = xs ∨ MovesOne xs ys := by
  unfold reorderSlide at h
  by_cases hout : (fromIndex.lt (.ofNat 0) || (JsNumber.ofNat xs.length).le fromIndex) = true
  · rw [if_pos hout] at h
    exact Or.inl (Option.some.inj h).symm
  · rw [if_neg hout] at h
    by_cases hsame : (JsNumber.max (.ofNat 0) (JsNumber.min toIndex
        (.finite ((xs.length : Int) - 1 : Int)))).same fromIndex = true
    · simp only [hsame, if_true] at h
      exact Or.inl (Option.some.inj h).symm
    · simp only [if_neg hsame] at h
      cases hat : xs[fromIndex.position xs.length]? with
      | none =>
        rw [hat] at h
        contradiction
      | some moved =>
        rw [hat] at h
        cases h
        obtain ⟨hlt, hmoved⟩ := List.getElem?_eq_some_iff.mp hat
        refine Or.inr ⟨moved, xs.take (fromIndex.position xs.length),
          xs.drop (fromIndex.position xs.length + 1), _, _, ?_, rfl, ?_⟩
        · rw [← hmoved, List.cons_getElem_drop_succ, List.take_append_drop]
        · rw [sliceTo_append_sliceFrom, List.eraseIdx_eq_take_drop_succ]

/-- Where there is a slide, one can be moved. -/
theorem isSome_reorderSlide (hxs : xs ≠ []) (fromIndex toIndex : JsNumber) :
    (reorderSlide xs fromIndex toIndex).isSome = true := by
  unfold reorderSlide
  by_cases hout : (fromIndex.lt (.ofNat 0) || (JsNumber.ofNat xs.length).le fromIndex) = true
  · rw [if_pos hout]
    rfl
  · rw [if_neg hout]
    rw [Bool.or_eq_true, not_or, Bool.not_eq_true, Bool.not_eq_true] at hout
    have hlt := JsNumber.position_lt (List.length_pos_of_ne_nil hxs) hout.1 hout.2
    by_cases hsame : (JsNumber.max (.ofNat 0) (JsNumber.min toIndex
        (.finite ((xs.length : Int) - 1 : Int)))).same fromIndex = true
    · simp only [hsame, if_true, Option.isSome_some]
    · simp only [if_neg hsame, List.getElem?_eq_getElem hlt, Option.isSome_some]

end Moving

/-! ## The round trip -/

theorem toSlide?_value (s : Slide ν) : toSlide? s.value = some s := by
  have hboth : isValidSlide (.object s.members) = true ∧
      (JsonValue.object s.members).distinct = true := ⟨s.valid, s.distinct⟩
  rw [Slide.value, toSlide?, dif_pos hboth]

variable {s : Slide ν} {d : Deck ν} {N : JsonNumbers ν} {slides : List (Slide ν)}

variable {v : JsonValue ν} {plus : JsNumber → JsNumber → JsNumber}

theorem value_of_toSlide? (h : toSlide? v = some s) : s.value = v := by
  cases v with
  | object members =>
    by_cases hboth : isValidSlide (.object members) = true ∧
        (JsonValue.object members).distinct = true
    · rw [toSlide?, dif_pos hboth] at h
      cases h
      rfl
    · rw [toSlide?, dif_neg hboth] at h
      contradiction
  | _ => contradiction

/-- A slide is read from its value alone. -/
theorem toSlide?_eq_some_iff (v : JsonValue ν) (s : Slide ν) :
    toSlide? v = some s ↔ s.value = v := by
  constructor
  · exact value_of_toSlide?
  · rintro rfl
    exact toSlide?_value s

/-- The value of a deck has distinct names. -/
theorem distinct_deckValue (N : JsonNumbers ν) (d : Deck ν) : (deckValue N d).distinct = true := by
  have hnames : [ofString "version", ofString "title", ofString "slides"].Nodup := by decide
  have hslides : distinctItems (d.slides.map Slide.value) = true := by
    refine distinctItems_iff.mpr fun v hv => ?_
    obtain ⟨s, _, rfl⟩ := List.mem_map.mp hv
    exact s.distinct
  simp only [deckValue, JsonValue.distinct, distinctMembers, hslides, Bool.and_true,
    decide_eq_true_eq, List.map_cons, List.map_nil]
  exact hnames

/-- The text of a deck is not blank. -/
theorem trim_serializeDeck (N : JsonNumbers ν) (d : Deck ν) : trim (serializeDeck N d) ≠ [] := by
  intro hempty
  have hspace := trim_eq_nil_iff.mp hempty (unit '\x7b') List.mem_cons_self
  revert hspace
  decide

/-- A deck as it is read back. -/
theorem parseDeckContent_serializeDeck (N : JsonNumbers ν) (d : Deck ν) (id : JsString) :
    parseDeckContent N (serializeDeck N d) id =
      if d.slides = [] then blankDeck id
      else
        (((d.slides.map fun s => settled N s.value).mapM toSlide?).map fun slides =>
          ⟨d.title, slides⟩).getD (blankDeck id) := by
  have hparse := parse_stringify N (deckValue N d) (distinct_deckValue N d)
  have hsettled : deckOf (settled N (deckValue N d)) =
      if d.slides = [] then none
      else ((d.slides.map fun s => settled N s.value).mapM toSlide?).map fun slides =>
        ⟨d.title, slides⟩ := by
    have htitle : ofString "version" ≠ ofString "title" := by decide
    have hslides : ofString "version" ≠ ofString "slides" ∧
        ofString "title" ≠ ofString "slides" := by decide
    simp only [deckValue, settled, settledMembers, settledItems_eq, deckOf, prop, Dict.lookupIn,
      if_neg htitle, if_neg hslides.1, if_neg hslides.2, if_true, List.map_map, Function.comp_def,
      List.isEmpty_iff, List.map_eq_nil_iff]
  rw [parseDeckContent, if_neg (trim_serializeDeck N d), serializeDeck, hparse]
  by_cases hempty : d.slides = []
  · simp only [hsettled, if_pos hempty, Option.getD_none]
  · simp only [hsettled, if_neg hempty]

/-- A new slide has finite numbers. -/
theorem finite_newSlide (N : JsonNumbers ν) (layout : SlideLayout) (id : JsString) :
    (newSlide (ν := ν) layout id).value.finite N = true :=
  rfl

/-- A deck is read back exactly when it has a slide and its numbers are finite. -/
theorem parse_serialize_iff (N : JsonNumbers ν) (d : Deck ν) :
    (∀ id, parseDeckContent N (serializeDeck N d) id = d) ↔ d.slides ≠ [] ∧ d.Finite N := by
  constructor
  · intro h
    have hid := h []
    rw [parseDeckContent_serializeDeck] at hid
    by_cases hempty : d.slides = []
    · rw [if_pos hempty] at hid
      rw [← hid] at hempty
      contradiction
    · refine ⟨hempty, ?_⟩
      rw [if_neg hempty] at hid
      cases hread : (d.slides.map fun s => settled N s.value).mapM toSlide? with
      | none =>
        rw [hread, Option.map_none, Option.getD_none] at hid
        intro s hs
        rw [← hid] at hs
        rw [List.mem_singleton.mp hs]
        exact finite_newSlide N .title []
      | some slides =>
        rw [hread, Option.map_some, Option.getD_some] at hid
        have hslides : slides = d.slides := congrArg Deck.slides hid
        have hvalues := (mapM_eq_some_iff toSlide?_eq_some_iff).mp hread
        rw [hslides] at hvalues
        intro s hs
        exact (settled_eq_iff N s.value).mp (List.map_inj_left.mp hvalues s hs).symm
  · rintro ⟨hne, hfinite⟩ id
    have hvalues : (d.slides.map fun s => settled N s.value) = d.slides.map Slide.value :=
      List.map_inj_left.mpr fun s hs => (settled_eq_iff N s.value).mpr (hfinite s hs)
    rw [parseDeckContent_serializeDeck, if_neg hne, hvalues,
      (mapM_eq_some_iff toSlide?_eq_some_iff).mpr rfl]
    rfl

theorem kept_iff : d.Kept N ↔ d.slides ≠ [] ∧ d.Finite N :=
  ⟨fun h => (parse_serialize_iff N d).mp h.roundTrip,
    fun h => ⟨h.1, (parse_serialize_iff N d).mpr h⟩⟩

/-! ## Every run -/

/-- A valid slide with distinct names is read. -/
theorem exists_toSlide? (hdistinct : v.distinct = true)
    (hvalid : isValidSlide v = true) : ∃ s, toSlide? v = some s := by
  cases v with
  | object members => exact ⟨⟨members, hvalid, hdistinct⟩, dif_pos ⟨hvalid, hdistinct⟩⟩
  | _ => contradiction

/-- What a content is read as: a blank deck, or the deck of an object with a title and slides. -/
theorem parseDeckContent_cases (N : JsonNumbers ν) (content id : JsString) :
    parseDeckContent N content id = blankDeck id ∨
      ∃ members title slides, trim content ≠ [] ∧ parse N content = some (.object members) ∧
        prop members "title" = some (.string title) ∧
        prop members "slides" = some (.array (slides.map Slide.value)) ∧ slides ≠ [] ∧
        parseDeckContent N content id = ⟨title, slides⟩ := by
  rw [parseDeckContent]
  by_cases htrim : trim content = []
  · rw [if_pos htrim]
    exact Or.inl rfl
  · rw [if_neg htrim]
    cases hparse : parse N content with
    | none => exact Or.inl rfl
    | some parsed =>
      cases hdeck : deckOf parsed with
      | none => exact Or.inl (by simp only [hdeck, Option.getD_none])
      | some d =>
        refine Or.inr ?_
        cases parsed with
        | object members =>
          have hread := hdeck
          rw [deckOf] at hread
          split at hread
          · rename_i title values htitle hslides
            by_cases hempty : values.isEmpty = true
            · rw [if_pos hempty] at hread
              contradiction
            · rw [if_neg hempty] at hread
              obtain ⟨slides, hmap, rfl⟩ := Option.map_eq_some_iff.mp hread
              have hvalues := (mapM_eq_some_iff toSlide?_eq_some_iff).mp hmap
              rw [List.isEmpty_iff, ← hvalues, List.map_eq_nil_iff] at hempty
              refine ⟨members, title, slides, htrim, rfl, htitle, ?_, hempty, ?_⟩
              · rw [hslides, hvalues]
              · simp only [hdeck, Option.getD_some]
          · contradiction
        | _ => contradiction

/-- A content with valid slides is read. -/
theorem parseDeckContent_of_valid {content : JsString}
    {members : List (JsString × JsonValue ν)} {title : JsString} {values : List (JsonValue ν)}
    (htrim : trim content ≠ []) (hparse : parse N content = some (.object members))
    (htitle : prop members "title" = some (.string title))
    (hslides : prop members "slides" = some (.array values)) (hne : values ≠ [])
    (hvalid : ∀ v ∈ values, isValidSlide v = true) (id : JsString) :
    ∃ slides, parseDeckContent N content id = ⟨title, slides⟩ ∧
      slides.map Slide.value = values := by
  have hmembers := distinct_of_parse N hparse
  simp only [JsonValue.distinct, Bool.and_eq_true] at hmembers
  have hdistinct : ∀ v ∈ values, v.distinct = true :=
    distinctItems_iff.mp (distinctMembers_iff.mp hmembers.2 _ (Dict.mem_of_lookupIn hslides))
  obtain ⟨slides, hmap⟩ := exists_mapM fun v hv => exists_toSlide? (hdistinct v hv) (hvalid v hv)
  refine ⟨slides, ?_, (mapM_eq_some_iff toSlide?_eq_some_iff).mp hmap⟩
  have hempty : ¬ values.isEmpty = true := by rwa [List.isEmpty_iff]
  simp only [parseDeckContent, if_neg htrim, hparse, deckOf, htitle, hslides, if_neg hempty, hmap,
    Option.map_some, Option.getD_some]

/-- A deck that is read has a slide. -/
theorem slides_parseDeckContent (N : JsonNumbers ν) (content id : JsString) :
    (parseDeckContent N content id).slides ≠ [] := by
  rcases parseDeckContent_cases N content id with hblank | ⟨_, _, _, _, _, _, _, hne, hread⟩
  · rw [hblank]
    exact List.cons_ne_nil _ _
  · rwa [hread]

/-- A deck is finite when its content is. -/
theorem finite_parseDeckContent_iff (N : JsonNumbers ν) (content id : JsString) :
    (parseDeckContent N content id).Finite N ↔ FiniteContent N content := by
  constructor
  · intro hfinite members values htrim hparse htitle hslides hvalid v hv
    obtain ⟨title, htitle'⟩ := isString_iff.mp htitle
    obtain ⟨slides, hread, rfl⟩ := parseDeckContent_of_valid htrim hparse htitle' hslides
      (List.ne_nil_of_mem hv) (List.all_eq_true.mp hvalid) id
    obtain ⟨s, hs, rfl⟩ := List.mem_map.mp hv
    rw [hread] at hfinite
    exact hfinite s hs
  · intro hcontent s hs
    rcases parseDeckContent_cases N content id with
      hblank | ⟨members, title, slides, htrim, hparse, htitle, hslides, _, hread⟩
    · rw [hblank] at hs
      rw [List.mem_singleton.mp hs]
      exact finite_newSlide N .title id
    · rw [hread] at hs
      refine hcontent members _ htrim hparse ?_ hslides ?_ _ (List.mem_map_of_mem hs)
      · rw [htitle]
        rfl
      · refine List.all_eq_true.mpr fun v hv => ?_
        obtain ⟨t, _, rfl⟩ := List.mem_map.mp hv
        exact t.valid

/-- An inserted slide is there, and the others stay. -/
theorem mem_insertSlideAfter {afterId : Option JsString} {slide : Slide ν} :
    s ∈ insertSlideAfter slides afterId slide ↔ s ∈ slides ∨ s = slide := by
  cases afterId with
  | none => simp [insertSlideAfter]
  | some afterId =>
    cases hfind : slides.findIdx? fun s => s.id = afterId with
    | none => simp [insertSlideAfter, hfind]
    | some index =>
      have hsplit : s ∈ slides ↔
          s ∈ slides.take (index + 1) ∨ s ∈ slides.drop (index + 1) := by
        rw [← List.mem_append, List.take_append_drop]
      simp only [insertSlideAfter, hfind, List.mem_append, List.mem_cons, hsplit]
      tauto

/-- Assigning keeps the numbers finite. -/
theorem finite_assign (N : JsonNumbers ν) (h : s.value.finite N = true)
    (f : SlideField) : (s.assign f).value.finite N = true := by
  refine (finiteMembers_iff N).mpr fun m hm => ?_
  rcases mem_assign hm with hold | hnew
  · exact (finiteMembers_iff N).mp h m hold
  · exact (value_texts hnew).2 N

/-- A patch keeps the numbers finite. -/
theorem finite_patched (N : JsonNumbers ν) (h : s.value.finite N = true)
    (patch : List SlideField) : (s.patched patch).value.finite N = true := by
  induction patch generalizing s with
  | nil => exact h
  | cons f patch ih => exact ih (finite_assign N h f)

/-- A filter drops one slide at most when the id occurs once at most. -/
theorem countP_le_one_iff (id : JsString) :
    slides.length ≤ (slides.filter fun s => s.id ≠ id).length + 1 ↔
      (slides.countP fun s => s.id = id) ≤ 1 := by
  have hlength := List.length_eq_countP_add_countP (fun s : Slide ν => decide (s.id = id))
    (l := slides)
  have hothers : (slides.countP fun s => decide (¬ decide (s.id = id) = true)) =
      (slides.filter fun s => s.id ≠ id).length := by
    rw [List.countP_eq_length_filter]
    simp
  omega

/-- Removing a slide drops one at most when the id occurs once at most. -/
theorem removeSlide_iff (hne : d.slides ≠ []) (hfinite : d.Finite N) (id : JsString) :
    ((removeSlide d.slides id ≠ [] ∧ ∀ s ∈ removeSlide d.slides id, s.value.finite N = true) ∧
      (removeSlide d.slides id).Sublist d.slides ∧
      d.slides.length ≤ (removeSlide d.slides id).length + 1) ↔
      d.slides.length ≤ 1 ∨ (d.slides.countP fun s => s.id = id) ≤ 1 := by
  by_cases hlast : d.slides.length ≤ 1
  · rw [removeSlide, if_pos hlast]
    exact iff_of_true ⟨⟨hne, hfinite⟩, List.Sublist.refl _, Nat.le_succ _⟩ (Or.inl hlast)
  · rw [removeSlide, if_neg hlast, or_iff_right hlast, countP_le_one_iff]
    constructor
    · exact fun h => h.2.2
    · intro hcount
      have hlength := (countP_le_one_iff id).mpr hcount
      refine ⟨⟨?_, ?_⟩, List.filter_sublist, hcount⟩
      · intro hnil
        rw [hnil, List.length_nil] at hlength
        omega
      · exact fun s hs => hfinite s (List.mem_filter.mp hs).1

/-- A deck is kept in another order. -/
theorem kept_of_perm (h : d.Kept N)
    (hperm : slides.Perm d.slides) : Kept N { d with slides := slides } := by
  obtain ⟨hne, hfinite⟩ := kept_iff.mp h
  refine kept_iff.mpr ⟨?_, fun s hs => hfinite s (hperm.mem_iff.mp hs)⟩
  rintro rfl
  exact hne (List.nil_perm.mp hperm)

/-- A deck is kept when a slide is dragged. -/
theorem kept_reorderSlide (h : d.Kept N) {fromIndex toIndex : JsNumber}
    (hslides : reorderSlide d.slides fromIndex toIndex = some slides) :
    Kept N { d with slides := slides } ∧ slides.Perm d.slides ∧
      (slides = d.slides ∨ MovesOne d.slides slides) := by
  rcases movesOne_reorderSlide hslides with rfl | hone
  · exact ⟨h, List.Perm.refl _, Or.inl rfl⟩
  · exact ⟨kept_of_perm h hone.perm, hone.perm, Or.inr hone⟩

/-- A deck is kept when a slide is moved. -/
theorem kept_moveSlideBy (h : d.Kept N) {id : JsString} {delta : JsNumber}
    (hslides : moveSlideBy plus d.slides id delta = some slides) :
    Kept N { d with slides := slides } ∧ slides.Perm d.slides ∧
      (slides = d.slides ∨ MovesOne d.slides slides) := by
  cases hfind : d.slides.findIdx? fun s => s.id = id with
  | none =>
    rw [moveSlideBy, hfind] at hslides
    cases hslides
    exact ⟨h, List.Perm.refl _, Or.inl rfl⟩
  | some index =>
    rw [moveSlideBy, hfind] at hslides
    exact kept_reorderSlide h hslides

/-- A deck is kept when the inserted slide is finite. -/
theorem kept_insertSlideAfter (h : d.Kept N) (afterId : Option JsString) (slide : Slide ν) :
    Kept N { d with slides := insertSlideAfter d.slides afterId slide } ↔
      slide.value.finite N = true := by
  obtain ⟨hne, hfinite⟩ := kept_iff.mp h
  rw [kept_iff]
  constructor
  · exact fun hkept => hkept.2 slide (mem_insertSlideAfter.mpr (Or.inr rfl))
  · intro hslide
    refine ⟨List.ne_nil_of_mem (mem_insertSlideAfter.mpr (Or.inr rfl)), ?_⟩
    intro s hs
    rcases mem_insertSlideAfter.mp hs with hold | rfl
    · exact hfinite s hold
    · exact hslide

/-- A deck is kept when a slide is patched. -/
theorem kept_updateSlide (h : d.Kept N) (id : JsString) (patch : List SlideField) :
    Kept N { d with slides := updateSlide d.slides id patch } := by
  obtain ⟨hne, hfinite⟩ := kept_iff.mp h
  refine kept_iff.mpr ⟨fun hnil => hne (List.map_eq_nil_iff.mp hnil), ?_⟩
  intro s' hs'
  obtain ⟨s, hs, rfl⟩ := List.mem_map.mp hs'
  by_cases hid : s.id = id
  · rw [if_pos hid]
    exact finite_patched N (hfinite s hs) patch
  · rw [if_neg hid]
    exact hfinite s hs

/-- What a step makes of a deck that is kept. -/
theorem step_iff {d' : Deck ν} (h : d.Kept N) {op : DeckOp ν} (hstep : step plus d op = some d') :
    d'.Kept N ∧ d.StepKept op d' ↔ d.Careful N op := by
  obtain ⟨slides, hslides, rfl⟩ := Option.map_eq_some_iff.mp hstep
  cases op with
  | insertSlideAfter afterId slide =>
    cases hslides
    exact (and_iff_left trivial).trans (kept_insertSlideAfter h afterId slide)
  | addSlide afterId layout id =>
    cases hslides
    exact iff_of_true ⟨(kept_insertSlideAfter h afterId _).mpr (finite_newSlide N _ id), trivial⟩
      trivial
  | removeSlide id =>
    cases hslides
    obtain ⟨hne, hfinite⟩ := kept_iff.mp h
    rw [kept_iff]
    exact removeSlide_iff hne hfinite id
  | updateSlide id patch =>
    cases hslides
    exact iff_of_true ⟨kept_updateSlide h id patch, trivial⟩ trivial
  | reorderSlide fromIndex toIndex => exact iff_of_true (kept_reorderSlide h hslides) trivial
  | moveSlideBy id delta => exact iff_of_true (kept_moveSlideBy h hslides) trivial

/-- Every operation has a result on a deck that has a slide. -/
theorem isSome_step (plus : JsNumber → JsNumber → JsNumber)
    (h : d.Kept N) (op : DeckOp ν) : (step plus d op).isSome = true := by
  rw [step, Option.isSome_map]
  cases op with
  | reorderSlide fromIndex toIndex => exact isSome_reorderSlide h.nonempty fromIndex toIndex
  | moveSlideBy id delta =>
    rw [slidesAfter, moveSlideBy]
    cases d.slides.findIdx? fun s => s.id = id with
    | none => rfl
    | some index => exact isSome_reorderSlide h.nonempty _ _
  | insertSlideAfter | addSlide | removeSlide | updateSlide => rfl

/-- The runs in which a deck is never empty, loses one slide at a time and is always read back:
the numbers that are loaded and inserted are finite, and no slide is removed by an id that another
one has too. -/
theorem deckLaw_iff (N : JsonNumbers ν) (plus : JsNumber → JsNumber → JsNumber)
    (content id : JsString) (ops : List (DeckOp ν)) :
    DeckLaw N plus content id ops ↔
      FiniteContent N content ∧
        Guarded (step plus) (Careful N) (parseDeckContent N content id) ops := by
  have hne := slides_parseDeckContent N content id
  rw [← finite_parseDeckContent_iff N content id]
  have hkeep : ∀ d op d', d.Kept N → d.Careful N op → step plus d op = some d' → d'.Kept N :=
    fun d op d' h hcareful hstep => ((step_iff h hstep).mpr hcareful).1
  have hexact : Kept N (parseDeckContent N content id) →
      (EveryStep (step plus) (fun d op d' => d'.Kept N ∧ d.StepKept op d')
        (parseDeckContent N content id) ops ↔
          Guarded (step plus) (Careful N) (parseDeckContent N content id) ops) := by
    refine fun hinit => everyStep_iff_guarded ?_ hkeep (fun _ _ _ h hstep => step_iff h hstep)
      hinit ops
    intro d op hnone
    cases op with
    | reorderSlide | moveSlideBy | addSlide | updateSlide => trivial
    | insertSlideAfter | removeSlide => contradiction
  constructor
  · rintro ⟨_, hstates, hsteps⟩
    have hinit := hstates [] ops _ rfl rfl
    have hevery := (states_iff_everyStep hinit ops).mp hstates
    exact ⟨(kept_iff.mp hinit).2, (hexact hinit).mp (everyStep_and.mpr ⟨hevery, hsteps⟩)⟩
  · rintro ⟨hfinite, hcareful⟩
    have hinit := kept_iff.mpr ⟨hne, hfinite⟩
    obtain ⟨hevery, hsteps⟩ := everyStep_and.mp ((hexact hinit).mpr hcareful)
    refine ⟨?_, (states_iff_everyStep hinit ops).mpr hevery, hsteps⟩
    exact isSome_run_of_guarded hkeep (fun d op h _ => isSome_step plus h op) hinit hcareful

/-- Two slides of one id. -/
def twins : JsString :=
  ofString ("\x7b\"title\":\"\",\"slides\":[" ++
    "\x7b\"id\":\"a\",\"layout\":\"blank\",\"title\":\"\",\"body\":\"\",\"bullets\":[]\x7d," ++
    "\x7b\"id\":\"a\",\"layout\":\"blank\",\"title\":\"\",\"body\":\"\",\"bullets\":[]\x7d]\x7d")

/-- Both slides of the deck are removed. -/
theorem not_deckLaw : ¬ DeckLaw textNumbers (fun a _ => a) twins (ofString "slide-1")
    [.removeSlide (ofString "a")] := by
  intro h
  have hlengths : (parseDeckContent textNumbers twins (ofString "slide-1")).slides.length = 2 ∧
      (removeSlide (parseDeckContent textNumbers twins (ofString "slide-1")).slides
        (ofString "a")).length = 0 := by decide +kernel
  have hremoved : ∀ d : Deck JsString,
      EveryStep (step fun a _ => a) StepKept d [.removeSlide (ofString "a")] →
        d.slides.length ≤ (removeSlide d.slides (ofString "a")).length + 1 :=
    fun d hevery => (hevery [] _ [] d _ rfl rfl rfl).2
  have hone := hremoved _ h.2.2
  rw [hlengths.1, hlengths.2] at hone
  exact absurd hone (by decide)

end Deck

end TinyAgentOS.OfficeStudio
