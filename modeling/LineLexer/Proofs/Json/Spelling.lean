import LineLexer.Json.Value
import LineLexer.Proofs.Json.Records

/-!
Texts of a value. A value of the writer has many texts, which differ in white space and in the way
its strings are escaped; the text that is written is one of them, and readers do not tell them
apart.
-/

namespace LineLexer.Json

mutual

/-- The tree is a text of the value. -/
inductive Tree.Spells : Tree → Value → Prop
  | number {n : Numeral} {k : Nat} (h : n.natural? = some k) :
      Tree.Spells (.number n) (.number k)
  | string {l : Literal} {s : String} (h : l.text? = some s) :
      Tree.Spells (.string l) (.string s)
  | list {gap : Gap} {items : List Item} {vs : List Value} (h : ItemsSpell items vs) :
      Tree.Spells (.list gap items) (.list vs)
  | object {gap : Gap} {members : List Member} {kvs : List (String × Value)}
      (h : MembersSpell members kvs) : Tree.Spells (.object gap members) (.object kvs)

inductive ItemsSpell : List Item → List Value → Prop
  | nil : ItemsSpell [] []
  | cons {item : Item} {v : Value} {items : List Item} {vs : List Value}
      (h : Tree.Spells item.value v) (hs : ItemsSpell items vs) :
      ItemsSpell (item :: items) (v :: vs)

inductive MembersSpell : List Member → List (String × Value) → Prop
  | nil : MembersSpell [] []
  | cons {member : Member} {key : String} {v : Value} {members : List Member}
      {kvs : List (String × Value)} (hk : member.key.text? = some key)
      (h : Tree.Spells member.value v) (hs : MembersSpell members kvs) :
      MembersSpell (member :: members) ((key, v) :: kvs)

end

/-! ### What readers make of a text -/

namespace Tree.Spells

theorem number?_eq {t : Tree} {k : Nat} (h : t.Spells (.number k)) (hk : k < 2 ^ 64) :
    t.number? = some k := by
  cases h with
  | number h =>
      rw [Tree.number?, Tree.natural?, h, Option.filter_some, if_pos (decide_eq_true hk)]

theorem text?_eq {t : Tree} {s : String} (h : t.Spells (.string s)) : t.text? = some s := by
  cases h with
  | string h => exact h

theorem name?_eq {t : Tree} {s : String} (h : t.Spells (.string s)) : t.name? = some s := by
  cases h with
  | string h => exact h

theorem character?_eq {t : Tree} {c : Char} (h : t.Spells (.string c.toString)) :
    t.character? = some c := by
  rw [Tree.character?, h.text?_eq, Option.bind_some]
  simp

end Tree.Spells

theorem ItemsSpell.mapM_eq {α : Type} {m : Tree → Option α} {write : α → Value} {items : List Item}
    {as : List α} (h : ItemsSpell items (as.map write))
    (hm : ∀ a ∈ as, ∀ t : Tree, t.Spells (write a) → m t = some a) :
    (items.mapM fun item => m item.value) = some as := by
  induction as generalizing items with
  | nil =>
      cases h
      rfl
  | cons a as ih =>
      cases h with
      | cons h hs =>
          obtain ⟨ha, has⟩ := List.forall_mem_cons.mp hm
          rw [List.mapM_cons, ha _ h, ih hs has]
          rfl

theorem Tree.Spells.list?_eq {α : Type} {m : Tree → Option α} {write : α → Value} {t : Tree}
    {as : List α} (h : t.Spells (.list (as.map write)))
    (hm : ∀ a ∈ as, ∀ t : Tree, t.Spells (write a) → m t = some a) : t.list? m = some as := by
  cases h with
  | list h => exact h.mapM_eq hm

/-! ### The written text -/

/-- The gap at the beginning of a line. -/
def newlineGap (depth : Nat) : Gap where
  chars := newline depth
  blank c hc := by
    rw [newline, List.mem_cons] at hc
    rcases hc with rfl | hc
    · decide
    · rw [List.eq_of_mem_replicate hc]
      decide

def blankGap : Gap := ⟨[' '], by simp [isSpace]⟩

mutual

theorem Value.exists_tree (v : Value) (depth : Nat) :
    ∃ t : Tree, t.chars = v.write depth ∧ t.Spells v := by
  match v with
  | .number k =>
      obtain ⟨n, hn, hk⟩ := exists_numeral k
      exact ⟨.number n, by rw [Tree.chars, hn, Value.write], .number hk⟩
  | .string s =>
      obtain ⟨l, hl, hs⟩ := exists_literal s
      exact ⟨.string l, by rw [Tree.chars, hl, Value.write], .string hs⟩
  | .list [] =>
      exact ⟨.list .none [], by rw [Tree.chars, itemsChars_nil, Value.write]; rfl, .list .nil⟩
  | .list (v :: vs) =>
      obtain ⟨items, hi, hs⟩ := exists_items v vs depth true
      refine ⟨.list .none items, ?_, .list hs⟩
      rw [Tree.chars, hi, Value.write]
      simp [separator, Gap.none]
  | .object [] =>
      exact ⟨.object .none [], by rw [Tree.chars, membersChars_nil, Value.write]; rfl, .object .nil⟩
  | .object ((key, v) :: kvs) =>
      obtain ⟨members, hm, hs⟩ := exists_members key v kvs depth true
      refine ⟨.object .none members, ?_, .object hs⟩
      rw [Tree.chars, hm, Value.write]
      simp [separator, Gap.none]
termination_by sizeOf v

/-- The items of a list, of which the last has the line of the closing bracket behind it. -/
theorem exists_items (v : Value) (vs : List Value) (depth : Nat) (fresh : Bool) :
    ∃ items : List Item, itemsChars fresh items =
        separator fresh ++ (newline (depth + 1) ++ (v.write (depth + 1) ++
          (writeItems depth vs ++ newline depth))) ∧
      ItemsSpell items (v :: vs) := by
  obtain ⟨t, ht, hv⟩ := v.exists_tree (depth + 1)
  match vs with
  | [] =>
      refine ⟨[⟨newlineGap (depth + 1), t, newlineGap depth⟩], ?_, .cons hv .nil⟩
      rw [itemsChars_cons, itemsChars_nil, writeItems, ht, List.append_nil]
      rfl
  | w :: vs =>
      obtain ⟨items, hi, hs⟩ := exists_items w vs depth false
      refine ⟨⟨newlineGap (depth + 1), t, .none⟩ :: items, ?_, .cons hv hs⟩
      rw [itemsChars_cons, hi, writeItems, ht]
      simp [newlineGap, separator, Gap.none]
termination_by 1 + sizeOf v + sizeOf vs

theorem exists_members (key : String) (v : Value) (kvs : List (String × Value)) (depth : Nat)
    (fresh : Bool) :
    ∃ members : List Member, membersChars fresh members =
        separator fresh ++ (newline (depth + 1) ++ (writeString key ++ ':' :: ' ' ::
          (v.write (depth + 1) ++ (writeMembers depth kvs ++ newline depth)))) ∧
      MembersSpell members ((key, v) :: kvs) := by
  obtain ⟨t, ht, hv⟩ := v.exists_tree (depth + 1)
  obtain ⟨l, hl, hk⟩ := exists_literal key
  match kvs with
  | [] =>
      refine ⟨[⟨newlineGap (depth + 1), l, .none, blankGap, t, newlineGap depth⟩], ?_,
        .cons hk hv .nil⟩
      rw [membersChars_cons, membersChars_nil, writeMembers, ht, ← hl]
      simp [newlineGap, blankGap, Literal.chars, Gap.none]
  | (key', w) :: kvs =>
      obtain ⟨members, hm, hs⟩ := exists_members key' w kvs depth false
      refine ⟨⟨newlineGap (depth + 1), l, .none, blankGap, t, .none⟩ :: members, ?_,
        .cons hk hv hs⟩
      rw [membersChars_cons, hm, writeMembers, ht, ← hl]
      simp [newlineGap, blankGap, Literal.chars, separator, Gap.none]
termination_by 1 + sizeOf v + sizeOf kvs

end

/-- The written text is one of the texts of the value. -/
theorem Value.exists_document (v : Value) : ∃ d : Document, d.text = v.text ∧ d.value.Spells v := by
  obtain ⟨t, ht, hv⟩ := v.exists_tree 0
  refine ⟨⟨.none, t, .none⟩, ?_, hv⟩
  rw [Document.text, text, ← ht]
  simp [Gap.none]

/-- What every text of a value means is loaded from the written text and from every other one. -/
theorem Reader.Means.load_of_spells {α : Type} {r : Reader α} {m : Tree → Option α}
    (hm : r.Means m) {v : Value} {a : α} (h : ∀ t : Tree, t.Spells v → m t = some a) :
    r.load v.text = .ok a ∧ ∀ d : Document, d.value.Spells v → r.load d.text = .ok a := by
  have every (d : Document) (hs : d.value.Spells v) : r.load d.text = .ok a :=
    (hm.load_eq_ok_iff d a).mpr (h d.value hs)
  obtain ⟨d, hd, hs⟩ := v.exists_document
  exact ⟨hd ▸ every d hs, every⟩

end LineLexer.Json
