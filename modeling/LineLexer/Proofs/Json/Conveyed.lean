import LineLexer.Proofs.Json.Members
import LineLexer.Proofs.Json.Spelling

/-!
Texts that convey a value. Such a text may put the members of an object in another order and have
members of other names among them, or give the bare values of the members as a list. A record which
passes over unknown members, and whose fields can be filled in any order, is read alike from every
one of these texts.
-/

namespace LineLexer.Json

mutual

/-- The tree holds the value, where objects may be extended, reordered or turned into lists. -/
inductive Tree.Conveys : Tree → Value → Prop
  | number {n : Numeral} {k : Nat} (h : n.natural? = some k) :
      Tree.Conveys (.number n) (.number k)
  | string {l : Literal} {s : String} (h : l.text? = some s) :
      Tree.Conveys (.string l) (.string s)
  | list {gap : Gap} {items : List Item} {vs : List Value} (h : ItemsConvey items vs) :
      Tree.Conveys (.list gap items) (.list vs)
  | object {gap : Gap} {members own extras : List Member} {kvs : List (String × Value)}
      (h : MembersConvey own kvs)
      (hx : ∀ extra ∈ extras, ∃ key, extra.key.text? = some key ∧ key ∉ kvs.map (·.1))
      (hp : members.Perm (own ++ extras)) : Tree.Conveys (.object gap members) (.object kvs)
  | array {gap : Gap} {items : List Item} {kvs : List (String × Value)}
      (h : ItemsConvey items (kvs.map (·.2))) : Tree.Conveys (.list gap items) (.object kvs)

inductive ItemsConvey : List Item → List Value → Prop
  | nil : ItemsConvey [] []
  | cons {item : Item} {v : Value} {items : List Item} {vs : List Value}
      (h : Tree.Conveys item.value v) (hs : ItemsConvey items vs) :
      ItemsConvey (item :: items) (v :: vs)

inductive MembersConvey : List Member → List (String × Value) → Prop
  | nil : MembersConvey [] []
  | cons {member : Member} {key : String} {v : Value} {members : List Member}
      {kvs : List (String × Value)} (hk : member.key.text? = some key)
      (h : Tree.Conveys member.value v) (hs : MembersConvey members kvs) :
      MembersConvey (member :: members) ((key, v) :: kvs)

end

/-! ### Every text of a value conveys it -/

mutual

theorem Tree.Spells.conveys {t : Tree} {v : Value} (h : t.Spells v) : t.Conveys v := by
  cases h with
  | number h => exact .number h
  | string h => exact .string h
  | list h => exact .list h.convey
  | object h =>
      refine .object h.convey (fun extra (hx : extra ∈ []) => nomatch hx) ?_
      rw [List.append_nil]

theorem ItemsSpell.convey {items : List Item} {vs : List Value} (h : ItemsSpell items vs) :
    ItemsConvey items vs := by
  cases h with
  | nil => exact .nil
  | cons h hs => exact .cons h.conveys hs.convey

theorem MembersSpell.convey {members : List Member} {kvs : List (String × Value)}
    (h : MembersSpell members kvs) : MembersConvey members kvs := by
  cases h with
  | nil => exact .nil
  | cons hk h hs => exact .cons hk h.conveys hs.convey

end

/-! ### What readers make of it -/

namespace Tree.Conveys

variable {t : Tree}

theorem spells_number {k : Nat} (h : t.Conveys (.number k)) : t.Spells (.number k) := by
  cases h with
  | number h => exact .number h

theorem spells_string {s : String} (h : t.Conveys (.string s)) : t.Spells (.string s) := by
  cases h with
  | string h => exact .string h

end Tree.Conveys

theorem ItemsConvey.mapM_eq {α : Type} {m : Tree → Option α} {write : α → Value}
    {items : List Item} {as : List α} (h : ItemsConvey items (as.map write))
    (hm : ∀ a ∈ as, ∀ t : Tree, t.Conveys (write a) → m t = some a) :
    (items.mapM fun item => m item.value) = some as := by
  induction as generalizing items with
  | nil =>
      cases h
      rfl
  | cons a as ih =>
      cases h with
      | cons h hs =>
          obtain ⟨ha, has⟩ := List.forall_mem_cons.mp hm
          rw [List.mapM_cons, ha _ h, ih hs has]
          rfl

theorem Tree.Conveys.list?_eq {α : Type} {m : Tree → Option α} {write : α → Value} {t : Tree}
    {as : List α} (h : t.Conveys (.list (as.map write)))
    (hm : ∀ a ∈ as, ∀ t : Tree, t.Conveys (write a) → m t = some a) : t.list? m = some as := by
  cases h with
  | list h => exact h.mapM_eq hm

/-! ### Members in any order -/

namespace Field

variable {σ β γ : Type}

/-- Fields that keep out of each other's way: filling one of them does not set the other, and it
does not matter which of them is filled first. -/
structure Disjoint (field other : Field σ) : Prop where
  keeps : field.Keeps other.isSet
  kept : other.Keeps field.isSet
  commutes : ∀ {t t' : Tree} {fill fill' : σ → σ}, field.value.of? t = some fill →
    other.value.of? t' = some fill' → ∀ draft, fill' (fill draft) = fill (fill' draft)

theorem Disjoint.symm {field other : Field σ} (h : field.Disjoint other) :
    other.Disjoint field where
  keeps := h.kept
  kept := h.keeps
  commutes hv hv' draft := (h.commutes hv' hv draft).symm

instance : Std.Symm (@Disjoint σ) := ⟨fun _ _ => Disjoint.symm⟩

theorem disjoint_ofOption {key key' : String} {get : σ → Option β} {get' : σ → Option γ}
    {set : σ → β → σ} {set' : σ → γ → σ} {value : Reader β} {value' : Reader γ}
    (hk : ∀ draft b, get' (set draft b) = get' draft)
    (hk' : ∀ draft c, get (set' draft c) = get draft)
    (hc : ∀ draft b c, set' (set draft b) c = set (set' draft c) b) :
    (ofOption key get set value).Disjoint (ofOption key' get' set' value') where
  keeps := (keeps_ofOption hk).isSome
  kept := (keeps_ofOption hk').isSome
  commutes := by
    intro t t' fill fill' hv hv' draft
    obtain ⟨b, _, rfl⟩ := Option.map_eq_some_iff.mp (of?_ofOption t ▸ hv)
    obtain ⟨c, _, rfl⟩ := Option.map_eq_some_iff.mp (of?_ofOption t' ▸ hv')
    exact hc draft b c

end Field

namespace Record

variable {σ α : Type} {r : Record σ α}

/-- Fields can be filled in any order, each of them once. -/
structure Unordered (r : Record σ α) : Prop where
  fills : ∀ field ∈ r.fields, field.Fills
  disjoint : r.fields.Pairwise Field.Disjoint

theorem fill?_of_open {draft : σ} {member : Member} {key : String}
    (hk : member.key.text? = some key) (hf : r.field? key = none) (ho : r.isOpen = true) :
    r.fill? draft member = some draft := by
  rw [fill?, hk, Option.bind_some, hf]
  exact if_pos ho

theorem Unordered.fill?_swap (hr : r.Unordered) {draft next filled : σ} {x y : Member}
    (hx : r.fill? draft x = some next) (hy : r.fill? next y = some filled) :
    ∃ other, r.fill? draft y = some other ∧ r.fill? other x = some filled := by
  obtain ⟨kx, hkx, hx⟩ := fill?_cases hx
  obtain ⟨ky, hky, hy⟩ := fill?_cases hy
  rcases hx with ⟨f, fill, hf, hs, hv, rfl⟩ | ⟨hf, ho, rfl⟩
  · rcases hy with ⟨g, fill', hg, hs', hv', rfl⟩ | ⟨hg, ho, rfl⟩
    · have hfm := (field?_eq_some hf).1
      have hgm := (field?_eq_some hg).1
      have hne : f ≠ g := by
        rintro rfl
        rw [hr.fills f hfm _ fill hv draft] at hs'
        cases hs'
      have hd : f.Disjoint g := hr.disjoint.forall hfm hgm hne
      have free : g.isSet draft = false := (hd.keeps _ fill hv draft).symm.trans hs'
      have free' : f.isSet (fill' draft) = false := (hd.kept _ fill' hv' draft).trans hs
      refine ⟨fill' draft, fill?_of_field hky hg free hv', ?_⟩
      rw [fill?_of_field hkx hf free' hv, hd.commutes hv hv']
    · exact ⟨draft, fill?_of_open hky hg ho, fill?_of_field hkx hf hs hv⟩
  · rcases hy with ⟨g, fill', hg, hs', hv', rfl⟩ | ⟨hg, ho', rfl⟩
    · exact ⟨_, fill?_of_field hky hg hs' hv', fill?_of_open hkx hf ho⟩
    · exact ⟨_, fill?_of_open hky hg ho', fill?_of_open hkx hf ho⟩

theorem Unordered.foldlM_perm (hr : r.Unordered) {members members' : List Member}
    (hp : members.Perm members') {draft filled : σ}
    (h : members.foldlM r.fill? draft = some filled) :
    members'.foldlM r.fill? draft = some filled := by
  induction hp generalizing draft with
  | nil => exact h
  | cons x _ ih =>
      rw [List.foldlM_cons] at h ⊢
      obtain ⟨next, hx, h⟩ := Option.bind_eq_some_iff.mp h
      exact Option.bind_eq_some_iff.mpr ⟨next, hx, ih h⟩
  | swap x y _ =>
      simp only [List.foldlM_cons] at h ⊢
      obtain ⟨next, hy, h⟩ := Option.bind_eq_some_iff.mp h
      obtain ⟨last, hx, h⟩ := Option.bind_eq_some_iff.mp h
      obtain ⟨other, hx, hy⟩ := hr.fill?_swap hy hx
      exact Option.bind_eq_some_iff.mpr ⟨other, hx, Option.bind_eq_some_iff.mpr ⟨last, hy, h⟩⟩
  | trans _ _ ih ih' => exact ih' (ih h)

theorem foldlM_extras (ho : r.isOpen = true) (draft : σ) {extras : List Member}
    (hx : ∀ extra ∈ extras, ∃ key, extra.key.text? = some key ∧ r.field? key = none) :
    extras.foldlM r.fill? draft = some draft := by
  induction extras with
  | nil => rfl
  | cons extra extras ih =>
      obtain ⟨⟨key, hk, hf⟩, hx⟩ := List.forall_mem_cons.mp hx
      rw [List.foldlM_cons, fill?_of_open hk hf ho]
      exact ih hx

/-! ### Whole records -/

/-- The values of the members, in their order, fill the fields one after the other. -/
inductive Fitted (r : Record σ α) : List (Field σ) → List (String × Value) → σ → σ → Prop
  | nil {draft : σ} : Fitted r [] [] draft draft
  | cons {field : Field σ} {fields : List (Field σ)} {key : String} {v : Value}
      {kvs : List (String × Value)} {draft filled : σ} {fill : σ → σ}
      (hf : r.field? key = some field) (hs : field.isSet draft = false)
      (hv : ∀ t : Tree, t.Conveys v → field.value.of? t = some fill)
      (next : Fitted r fields kvs (fill draft) filled) :
      Fitted r (field :: fields) ((key, v) :: kvs) draft filled

namespace Fitted

variable {fields : List (Field σ)} {kvs : List (String × Value)} {draft filled : σ}

theorem ofOption {β : Type} {key : String} {get : σ → Option β} {set : σ → β → σ}
    {value : Reader β} {read : Tree → Option β} {v : Value} {b : β}
    (hf : r.field? key = some (.ofOption key get set value)) (hs : get draft = none)
    (hm : value.Means read) (hb : ∀ t : Tree, t.Conveys v → read t = some b)
    (next : r.Fitted fields kvs (set draft b) filled) :
    r.Fitted (.ofOption key get set value :: fields) ((key, v) :: kvs) draft filled := by
  have hv (t : Tree) (ht : t.Conveys v) : (Field.ofOption key get set value).value.of? t =
      some fun draft => set draft b := by
    rw [Field.of?_ofOption, hm.of?_eq, hb t ht]
    rfl
  exact .cons hf (congrArg Option.isSome hs) hv next

theorem keys_eq (h : r.Fitted fields kvs draft filled) :
    fields.map (·.key) = kvs.map (·.1) := by
  induction h with
  | nil => rfl
  | cons hf _ _ _ ih => rw [List.map_cons, List.map_cons, ih, (field?_eq_some hf).2]

theorem foldlM_eq (h : r.Fitted fields kvs draft filled) {members : List Member}
    (hm : MembersConvey members kvs) : members.foldlM r.fill? draft = some filled := by
  induction h generalizing members with
  | nil =>
      cases hm
      rfl
  | cons hf hs hv _ ih =>
      cases hm with
      | cons hk ht hm =>
          rw [List.foldlM_cons, fill?_of_field hk hf hs (hv _ ht)]
          exact ih hm

theorem ofItems?_eq (h : r.Fitted fields kvs draft filled) {items : List Item}
    (hi : ItemsConvey items (kvs.map (·.2))) :
    r.ofItems? draft fields items = (r.finish filled).toOption := by
  induction h generalizing items with
  | nil =>
      cases hi
      rw [ofItems?]
  | cons _ _ hv _ ih =>
      cases hi with
      | cons ht hi =>
          rw [ofItems?, hv _ ht]
          exact ih hi

end Fitted

/-- A record is read from whatever conveys its written members. -/
theorem Unordered.of?_eq (hr : r.Unordered) (ho : r.isOpen = true) {t : Tree}
    {kvs : List (String × Value)} {a : α} (ht : t.Conveys (.object kvs)) (filled : σ)
    (h : r.Fitted r.fields kvs r.blank filled) (hf : r.finish filled = .ok a) :
    r.of? t = some a := by
  have done : (r.finish filled).toOption = some a := by
    rw [hf]
    rfl
  cases ht with
  | array hi => exact (h.ofItems?_eq hi).trans done
  | @object _ members own extras _ hm hx hp =>
      have unknown : ∀ extra ∈ extras, ∃ key, extra.key.text? = some key ∧ r.field? key = none := by
        intro extra he
        obtain ⟨key, hk, hn⟩ := hx extra he
        refine ⟨key, hk, List.find?_eq_none.mpr fun field hm => ?_⟩
        rw [← h.keys_eq] at hn
        rw [beq_iff_eq]
        rintro rfl
        exact hn (List.mem_map_of_mem hm)
      have all : members.foldlM r.fill? r.blank = some filled := by
        apply hr.foldlM_perm hp.symm
        rw [List.foldlM_append, h.foldlM_eq hm]
        exact foldlM_extras ho filled unknown
      rw [of?, ofMembers?, all, Option.bind_some, done]

end Record

/-- The written text is one of those that convey the value. -/
theorem Value.exists_conveying (v : Value) :
    ∃ d : Document, d.text = v.text ∧ d.value.Conveys v := by
  obtain ⟨d, hd, hs⟩ := v.exists_document
  exact ⟨d, hd, hs.conveys⟩

end LineLexer.Json
