import LineLexer.Json.Record
import LineLexer.Proofs.Json.Readers

/-!
What records make of objects and arrays. A member fills the field of its key, once; the fields of an
array are filled in their order.
-/

namespace LineLexer.Json.Record

variable {σ α : Type} (r : Record σ α)

/-- The draft with one more member. -/
def fill? (draft : σ) (member : Member) : Option σ :=
  member.key.text?.bind fun key =>
    match r.field? key with
    | some field =>
      if field.isSet draft then none else (field.value.of? member.value).map fun fill => fill draft
    | none => if r.isOpen then some draft else none

def ofMembers? (draft : σ) (members : List Member) : Option α :=
  (members.foldlM r.fill? draft).bind fun filled => (r.finish filled).toOption

def ofItems? (draft : σ) : List (Field σ) → List Item → Option α
  | _, [] => (r.finish draft).toOption
  | [], _ :: _ => none
  | field :: fields, item :: items =>
    (field.value.of? item.value).bind fun fill => ofItems? (fill draft) fields items

def of? : Tree → Option α
  | .object _ members => r.ofMembers? r.blank members
  | .list _ items => r.ofItems? r.blank r.fields items
  | _ => none

theorem ofMembers?_cons (draft : σ) (member : Member) (members : List Member) :
    r.ofMembers? draft (member :: members) =
      (r.fill? draft member).bind fun filled => r.ofMembers? filled members := by
  rw [ofMembers?, List.foldlM_cons]
  cases r.fill? draft member <;> rfl

/-! ### Objects -/

theorem nextMember_close (fresh : Bool) (g : Gap) (rest : List Char) :
    nextMember fresh (g.chars ++ '\x7d' :: rest) = .ok (.close rest) := by
  rw [nextMember, skipSpace_gap_cons g rest (by decide)]
  rfl

theorem nextMember_separator (fresh : Bool) (g g' : Gap) (cs : List Char) :
    nextMember fresh (g.chars ++ (separator fresh ++ (g'.chars ++ '"' :: cs))) =
      .ok (.entry cs) := by
  cases fresh with
  | true =>
      rw [separator, if_pos rfl, List.nil_append, nextMember,
        skipSpace_gaps_cons g g' cs (by decide)]
      rfl
  | false =>
      rw [separator, if_neg Bool.false_ne_true, List.singleton_append, nextMember,
        skipSpace_gap_cons g _ (by decide)]
      split
      · next he => cases he
      · next he => cases he
      · next he =>
          obtain ⟨rfl, rfl⟩ := List.cons.inj he
          rw [if_neg Bool.false_ne_true, if_pos rfl, skipSpace_gap_cons g' cs (by decide)]
          rfl

section

variable {r} {fresh : Bool} {draft : σ} {cs : List Char}

theorem readMembers_close {rest : List Char} (h : nextMember fresh cs = .ok (.close rest)) :
    (r.readMembers fresh draft cs).toOption = (r.finish draft).toOption.map (·, rest) := by
  rw [readMembers]
  split
  · next he => rw [h] at he; cases he
  · next he =>
      rw [h] at he
      cases he
      cases r.finish draft <;> rfl
  · next he => rw [h] at he; cases he

theorem readMembers_entry {start : List Char} (h : nextMember fresh cs = .ok (.entry start)) :
    r.readMembers fresh draft cs =
      r.readMember draft start >>= fun (filled, rest) => r.readMembers false filled rest := by
  rw [readMembers]
  split
  · next he => rw [h] at he; cases he
  · next he => rw [h] at he; cases he
  · next he =>
      rw [h] at he
      cases he
      cases r.readMember draft start <;> rfl

end

section

variable {r} (hr : ∀ field ∈ r.fields, field.value.IsLocal)

include hr

theorem toOption_readMember (draft : σ) (member : Member) {rest : List Char} (h : Ends rest) :
    (r.readMember draft (member.key.body ++ (member.behindKey.chars ++ ':' ::
        (member.beforeValue.chars ++ (member.value.chars ++ rest))))).toOption =
      (r.fill? draft member).map (·, rest) := by
  rw [readMember, toOption_bind, toOption_readString, fill?]
  cases member.key.text? with
  | none => rfl
  | some key =>
      simp only [Option.map_some, Option.bind_some]
      cases hf : r.field? key with
      | none =>
          -- nobody looks at the value, it only has to be passed over
          simp only
          split
          · simp only [readColon_gap, toOption_bind, toOption_ok, Option.bind_some,
              skipValue_chars member.beforeValue member.value h, Option.map_some]
          · rfl
      | some field =>
          have hl := hr field (List.mem_of_find?_eq_some hf) member.beforeValue member.value rest h
          simp only
          split
          · rfl
          · simp only [readColon_gap, toOption_bind, toOption_ok, Option.bind_some, hl]
            cases field.value.of? member.value <;> rfl

theorem toOption_readMembers (members : List Member) (fresh : Bool) (draft : σ) (g : Gap)
    (rest : List Char) :
    (r.readMembers fresh draft
        (g.chars ++ (membersChars fresh members ++ '\x7d' :: rest))).toOption =
      (r.ofMembers? draft members).map (·, rest) := by
  induction members generalizing fresh draft g with
  | nil =>
      rw [membersChars_nil, List.nil_append]
      exact readMembers_close (nextMember_close fresh g rest)
  | cons member members ih =>
      have ends := member.behind.ends (ends_members members rest)
      have first := toOption_readMember hr draft member ends
      simp only [membersChars_cons, List.append_assoc, List.cons_append]
      rw [readMembers_entry (nextMember_separator fresh g member.before _), toOption_bind, first,
        ofMembers?_cons]
      cases r.fill? draft member with
      | none => rfl
      | some filled => exact ih false filled member.behind

/-! ### Arrays -/

omit hr in
theorem toOption_finishArray (length : Nat) (draft : σ) (rest : List Char) :
    (r.finishArray length draft rest).toOption = (r.finish draft).toOption.map (·, rest) := by
  rw [finishArray]
  cases r.finish draft <;> rfl

end

theorem toOption_closeArray (fresh : Bool) (g : Gap) (items : List Item) (rest : List Char) :
    (closeArray (g.chars ++ (itemsChars fresh items ++ ']' :: rest))).toOption =
      if items.isEmpty then some rest else none := by
  cases items with
  | nil =>
      rw [itemsChars_nil, List.nil_append, closeArray, skipSpace_gap_cons g rest (by decide)]
      rfl
  | cons item items =>
      obtain ⟨c, cs, ht, hc⟩ := item.value.exists_head
      obtain ⟨_, hcomma, hc, _⟩ := hc.isSpace_eq_false
      have head := item.value.isSpace_head?
      simp only [itemsChars_cons, List.append_assoc, closeArray]
      cases fresh with
      | true =>
          rw [separator, if_pos rfl, List.nil_append, skipSpace_gaps g item.before (head _), ht]
          split <;> simp_all [Except.toOption]
      | false =>
          rw [separator, if_neg Bool.false_ne_true, List.singleton_append,
            skipSpace_gap_cons g _ (by decide)]
          simp only
          split <;> rfl

section

variable {r} (fields : List (Field σ)) (hr : ∀ field ∈ fields, field.value.IsLocal)

include hr

theorem toOption_readSlots (items : List Item) (length : Nat) (draft : σ) (g : Gap)
    (rest : List Char) :
    (r.readSlots length draft fields
        (g.chars ++ (itemsChars (length == 0) items ++ ']' :: rest))).toOption =
      (r.ofItems? draft fields items).map (·, rest) := by
  induction fields generalizing items length draft g with
  | nil =>
      rw [readSlots, toOption_bind, toOption_closeArray]
      cases items with
      | nil => exact toOption_finishArray length draft rest
      | cons item items => rfl
  | cons field fields ih =>
      cases items with
      | nil =>
          rw [readSlots, itemsChars_nil, List.nil_append, nextItem_close]
          exact toOption_finishArray length draft rest
      | cons item items =>
          have ends := item.behind.ends (ends_items items rest)
          have first := Reader.Means.toOption_run (hr field List.mem_cons_self) item.value ends
          simp only [itemsChars_cons, List.append_assoc]
          rw [readSlots, nextItem_separator, toOption_bind, toOption_ok, Option.bind_some]
          simp only [toOption_bind]
          rw [first, ofItems?]
          cases field.value.of? item.value with
          | none => rfl
          | some fill =>
              have behind := fun f hf => hr f (List.mem_cons_of_mem field hf)
              exact ih behind items (length + 1) (fill draft) item.behind

end

/-! ### Records -/

section

variable {r} (hr : ∀ field ∈ r.fields, field.value.IsLocal)

include hr

theorem toOption_read (g : Gap) (t : Tree) (rest : List Char) :
    (r.read (g.chars ++ (t.chars ++ rest))).toOption = (r.of? t).map (·, rest) := by
  rw [read, skipSpace_gap g (t.isSpace_head? rest)]
  cases t with
  | object gap members =>
      rw [Tree.chars, List.cons_append, List.append_assoc, List.append_assoc]
      exact toOption_readMembers hr members true r.blank gap rest
  | list gap items =>
      rw [Tree.chars, List.cons_append, List.append_assoc, List.append_assoc]
      exact toOption_readSlots r.fields hr items 0 r.blank gap rest
  | number n =>
      rw [Tree.chars]
      split
      · rfl
      · next he => exact absurd he (n.chars_ne_cons (by decide) rfl _ _)
      · next he => exact absurd he (n.chars_ne_cons (by decide) rfl _ _)
      · rfl
  | boolean b => cases b <;> rw [Tree.chars] <;> rfl
  | null | string _ =>
      rw [Tree.chars]
      rfl

theorem means_record : (Reader.record r).Means r.of? := fun g t rest _ => toOption_read hr g t rest

end

end LineLexer.Json.Record
