import LineLexer.Proofs.Json.Spelling

/-!
Members in any order. As long as no field stands in the way of another, the members of an object can
be judged one by one: an object is read if each of its members could be read alone and no two of
them fill the same field, and each field then holds what its own member says.
-/

namespace LineLexer.Json

theorem Reader.of?_map {α β : Type} (r : Reader α) (f : α → β) (t : Tree) :
    (r.map f).of? t = (r.of? t).map f := by
  rw [of?, map, toOption_map, of?, Option.map_map, Option.map_map]
  rfl

namespace Field

variable {σ β γ : Type}

/-- A draft has the field after it has been filled. -/
def Fills (field : Field σ) : Prop :=
  ∀ t fill, field.value.of? t = some fill → ∀ draft, field.isSet (fill draft) = true

/-- A part of the draft that is left as it is when the field is filled. -/
def Keeps (field : Field σ) (get : σ → γ) : Prop :=
  ∀ t fill, field.value.of? t = some fill → ∀ draft, get (fill draft) = get draft

variable {key : String} {get : σ → Option β} {set : σ → β → σ} {value : Reader β}

theorem of?_ofOption (t : Tree) :
    (ofOption key get set value).value.of? t = (value.of? t).map fun b draft => set draft b :=
  value.of?_map (fun b draft => set draft b) t

theorem isSome_of?_ofOption {m : Tree → Option β} (h : value.Means m) (t : Tree) :
    ((ofOption key get set value).value.of? t).isSome ↔ (m t).isSome := by
  rw [of?_ofOption, h.of?_eq, Option.isSome_map]

theorem isLocal_ofOption {m : Tree → Option β} (h : value.Means m) :
    (ofOption key get set value).value.IsLocal :=
  (h.map fun b draft => set draft b).isLocal

theorem fills_ofOption (h : ∀ draft b, get (set draft b) = some b) :
    (ofOption key get set value).Fills := by
  intro t fill hf draft
  obtain ⟨b, _, rfl⟩ := Option.map_eq_some_iff.mp (of?_ofOption t ▸ hf)
  exact congrArg Option.isSome (h draft b)

theorem keeps_ofOption {part : σ → γ} (h : ∀ draft b, part (set draft b) = part draft) :
    (ofOption key get set value).Keeps part := by
  intro t fill hf draft
  obtain ⟨b, _, rfl⟩ := Option.map_eq_some_iff.mp (of?_ofOption t ▸ hf)
  exact h draft b

theorem Keeps.isSome {field : Field σ} (h : field.Keeps get) :
    field.Keeps fun draft => (get draft).isSome :=
  fun t fill hf draft => congrArg Option.isSome (h t fill hf draft)

end Field

namespace Record

variable {σ α : Type} (r : Record σ α)

/-- No field stands in the way of another. -/
structure Lawful : Prop where
  fills : ∀ field ∈ r.fields, field.Fills
  keeps : ∀ field ∈ r.fields, ∀ other ∈ r.fields, field.key ≠ other.key → field.Keeps other.isSet

/-- The members do not fill the same field. -/
def Apart (member other : Member) : Prop :=
  ∀ key, (r.field? key).isSome → member.key.text? = some key → other.key.text? ≠ some key

/-! ### One member -/

section

variable {r} {draft filled : σ} {member : Member}

theorem field?_eq_some {key : String} {field : Field σ} (h : r.field? key = some field) :
    field ∈ r.fields ∧ field.key = key :=
  ⟨List.mem_of_find?_eq_some h, by simpa using List.find?_some h⟩

/-- A member fills its field with its value, or it is passed over. -/
theorem fill?_cases (h : r.fill? draft member = some filled) :
    ∃ key, member.key.text? = some key ∧
      ((∃ field fill, r.field? key = some field ∧ field.isSet draft = false ∧
          field.value.of? member.value = some fill ∧ filled = fill draft) ∨
        (r.field? key = none ∧ r.isOpen = true ∧ filled = draft)) := by
  rw [fill?] at h
  obtain ⟨key, hk, h⟩ := Option.bind_eq_some_iff.mp h
  refine ⟨key, hk, ?_⟩
  cases hf : r.field? key with
  | some field =>
      rw [hf] at h
      simp only at h
      split at h
      · cases h
      · next hs =>
          obtain ⟨fill, hv, rfl⟩ := Option.map_eq_some_iff.mp h
          exact .inl ⟨field, fill, rfl, eq_false_of_ne_true hs, hv, rfl⟩
  | none =>
      rw [hf] at h
      simp only at h
      split at h
      · next ho =>
          cases h
          exact .inr ⟨rfl, ho, rfl⟩
      · cases h

theorem fill?_of_field {key : String} {field : Field σ} {fill : σ → σ}
    (hk : member.key.text? = some key) (hf : r.field? key = some field)
    (hs : field.isSet draft = false) (hv : field.value.of? member.value = some fill) :
    r.fill? draft member = some (fill draft) := by
  rw [fill?, hk, Option.bind_some, hf]
  simp only [hs, hv]
  rfl

theorem isSome_fill?_iff {key : String} (hk : member.key.text? = some key) :
    (r.fill? draft member).isSome ↔
      match r.field? key with
      | some field => field.isSet draft = false ∧ (field.value.of? member.value).isSome
      | none => r.isOpen = true := by
  rw [fill?, hk, Option.bind_some]
  cases r.field? key with
  | some field => cases hs : field.isSet draft <;> simp [hs]
  | none => cases r.isOpen <;> simp

theorem apart_iff {key key' : String} {other : Member} (hk : member.key.text? = some key)
    (hk' : other.key.text? = some key') :
    r.Apart member other ↔ ((r.field? key).isSome → key ≠ key') := by
  constructor
  · rintro ha hf rfl
    exact ha key hf hk hk'
  · rintro hn _ hf h h'
    obtain rfl := Option.some.inj (hk.symm.trans h)
    exact hn hf (Option.some.inj (h'.symm.trans hk'))

/-- What a draft still takes after a member is what it took before, except for the same field. -/
theorem isSome_fill?_filled (hl : r.Lawful) (h : r.fill? draft member = some filled)
    (other : Member) :
    (r.fill? filled other).isSome ↔ (r.fill? draft other).isSome ∧ r.Apart member other := by
  obtain ⟨key, hk, h⟩ := fill?_cases h
  cases hk' : other.key.text? with
  | none => simp [fill?, hk']
  | some key' =>
      rw [isSome_fill?_iff hk', isSome_fill?_iff hk', apart_iff hk hk']
      -- a member that was passed over has changed nothing, another one has filled its own field
      rcases h with ⟨field, fill, hf, hs, hv, rfl⟩ | ⟨hf, ho, rfl⟩
      · obtain ⟨hm, rfl⟩ := field?_eq_some hf
        by_cases hn : field.key = key'
        · subst hn
          have := hl.fills field hm _ fill hv draft
          simp [hf, this]
        · cases hf' : r.field? key' with
          | none => simp [hn]
          | some other =>
              obtain ⟨hm', rfl⟩ := field?_eq_some hf'
              have := hl.keeps field hm other hm' hn _ fill hv draft
              simp [this, hn]
      · simp [hf]

end

/-! ### All members -/

section

variable {r} {filled : σ}

/-- The members of an object are read if each could be read alone and no two fill the same field. -/
theorem isSome_foldlM_fill? (hl : r.Lawful) (members : List Member) (draft : σ) :
    (members.foldlM r.fill? draft).isSome ↔
      (∀ member ∈ members, (r.fill? draft member).isSome) ∧ members.Pairwise r.Apart := by
  induction members generalizing draft with
  | nil => simp
  | cons member members ih =>
      rw [List.foldlM_cons, List.forall_mem_cons, List.pairwise_cons]
      cases hm : r.fill? draft member with
      | none => simp
      | some next =>
          have step := isSome_fill?_filled hl hm
          simp only [Option.bind_eq_bind, Option.bind_some, ih next, step, Option.isSome_some,
            true_and]
          constructor
          · rintro ⟨h, hp⟩
            exact ⟨fun m hm => (h m hm).1, fun m hm => (h m hm).2, hp⟩
          · rintro ⟨h, ha, hp⟩
            exact ⟨fun m hm => ⟨h m hm, ha m hm⟩, hp⟩

end

/-- A part of the draft that the members of one key fill, and no others. -/
structure Slot {β : Type} (key : String) (get : σ → Option β) (read : Tree → Option β) : Prop where
  own : ∀ {draft filled : σ} {member : Member}, r.fill? draft member = some filled →
    member.key.text? = some key → ∃ b, read member.value = some b ∧ get filled = some b
  other : ∀ {draft filled : σ} {member : Member}, r.fill? draft member = some filled →
    member.key.text? ≠ some key → get filled = get draft

section

variable {r} {β : Type} {key : String} {get : σ → Option β} {read : Tree → Option β}

theorem slot_ofOption {set : σ → β → σ} {value : Reader β}
    (hf : r.field? key = some (.ofOption key get set value)) (hm : value.Means read)
    (hget : ∀ draft b, get (set draft b) = some b)
    (hkeep : ∀ field ∈ r.fields, field.key ≠ key → field.Keeps get) : r.Slot key get read where
  own := by
    intro draft filled member h hk
    obtain ⟨key', hk', h⟩ := fill?_cases h
    obtain rfl := Option.some.inj (hk.symm.trans hk')
    rcases h with ⟨field, fill, hf', _, hv, rfl⟩ | ⟨hf', _, _⟩
    · obtain rfl := Option.some.inj (hf.symm.trans hf')
      rw [Field.of?_ofOption, hm.of?_eq] at hv
      obtain ⟨b, hb, rfl⟩ := Option.map_eq_some_iff.mp hv
      exact ⟨b, hb, hget draft b⟩
    · rw [hf] at hf'
      cases hf'
  other := by
    intro draft filled member h hk
    obtain ⟨key', hk', h⟩ := fill?_cases h
    rcases h with ⟨field, fill, hf', _, hv, rfl⟩ | ⟨_, _, rfl⟩
    · obtain ⟨hm, rfl⟩ := field?_eq_some hf'
      refine hkeep field hm ?_ _ fill hv draft
      rintro rfl
      exact hk hk'
    · rfl

namespace Slot

variable (hs : r.Slot key get read) {members : List Member} {draft filled : σ}

include hs

theorem get_of_foldlM (h : members.foldlM r.fill? draft = some filled)
    (hk : ∀ member ∈ members, member.key.text? ≠ some key) : get filled = get draft := by
  induction members generalizing draft with
  | nil =>
      cases h
      rfl
  | cons member members ih =>
      obtain ⟨hm, hk⟩ := List.forall_mem_cons.mp hk
      rw [List.foldlM_cons] at h
      obtain ⟨next, hn, h⟩ := Option.bind_eq_some_iff.mp h
      exact (ih h hk).trans (hs.other hn hm)

/-- A field that a member fills holds the value of that member. -/
theorem get_of_mem (h : members.foldlM r.fill? draft = some filled)
    (hp : members.Pairwise r.Apart) (hf : (r.field? key).isSome) :
    ∀ member ∈ members, member.key.text? = some key →
      ∃ b, read member.value = some b ∧ get filled = some b := by
  induction members generalizing draft with
  | nil => simp
  | cons member members ih =>
      obtain ⟨ha, hp⟩ := List.pairwise_cons.mp hp
      rw [List.foldlM_cons] at h
      obtain ⟨next, hn, behind⟩ := Option.bind_eq_some_iff.mp h
      intro m hm hk
      rcases List.mem_cons.mp hm with rfl | hm
      · obtain ⟨b, hb, hg⟩ := hs.own hn hk
        refine ⟨b, hb, (hs.get_of_foldlM behind ?_).trans hg⟩
        exact fun other ho => ha other ho key hf hk
      · exact ih behind hp m hm hk

end Slot

/-! ### Written members -/

theorem fill?_ofOption {set : σ → β → σ} {value : Reader β} {draft : σ} {member : Member} {b : β}
    (hf : r.field? key = some (.ofOption key get set value)) (hm : value.Means read)
    (hs : get draft = none) (hk : member.key.text? = some key) (hb : read member.value = some b) :
    r.fill? draft member = some (set draft b) := by
  have hv : (Field.ofOption key get set value).value.of? member.value =
      some fun draft => set draft b := by
    rw [Field.of?_ofOption, hm.of?_eq, hb]
    rfl
  exact fill?_of_field hk hf (congrArg Option.isSome hs) hv

/-- The first of the written members fills its field with the written value. -/
theorem exists_ofMembers?_of_spell {set : σ → β → σ} {value : Reader β} {b : β} {v : Value}
    {kvs : List (String × Value)} {members : List Member}
    (h : MembersSpell members ((key, v) :: kvs))
    (hf : r.field? key = some (.ofOption key get set value)) (hm : value.Means read)
    (hb : ∀ t : Tree, t.Spells v → read t = some b) :
    ∃ rest, MembersSpell rest kvs ∧ ∀ draft, get draft = none →
      r.ofMembers? draft members = r.ofMembers? (set draft b) rest := by
  cases h with
  | cons hk hv h =>
      refine ⟨_, h, fun draft hs => ?_⟩
      rw [ofMembers?_cons, fill?_ofOption hf hm hs hk (hb _ hv), Option.bind_some]

end

end Record

end LineLexer.Json
