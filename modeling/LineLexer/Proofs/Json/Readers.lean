import LineLexer.Json.Document
import LineLexer.Proofs.Json.Literal
import LineLexer.Proofs.Json.Skip

/-!
What readers make of values. A reader is described by a function on trees: off the text of a tree it
takes what the function makes of the tree, up to the very end of that text, and it fails where the
function makes nothing of it. Descriptions of readers of parts make up those of readers of wholes.
-/

namespace LineLexer.Json

theorem ends_nil : Ends [] := fun _ h => nomatch h

theorem toOption_ok {α : Type} (a : α) : (.ok a : Except Fault α).toOption = some a := rfl

theorem toOption_map {α β : Type} (x : Except Fault α) (f : α → β) :
    (x.map f).toOption = x.toOption.map f := by
  cases x <;> rfl

theorem toOption_mapError {α ε : Type} (x : Except Fault α) (f : Fault → ε) :
    (x.mapError f).toOption = x.toOption := by
  cases x <;> rfl

namespace Reader

variable {α β : Type} {r : Reader α} {m : Tree → Option α}

/-- Off every text of a tree the reader takes what `m` makes of the tree, if anything. -/
def Means (r : Reader α) (m : Tree → Option α) : Prop :=
  ∀ (g : Gap) (t : Tree) (rest : List Char), Ends rest →
    (r.run (g.chars ++ (t.chars ++ rest))).toOption = (m t).map (·, rest)

/-- What a reader makes of a tree that stands alone. -/
def of? (r : Reader α) (t : Tree) : Option α := (r.run t.chars).toOption.map (·.1)

/-- What the reader makes of a tree does not depend on the place of the tree. -/
def IsLocal (r : Reader α) : Prop := r.Means r.of?

theorem Means.toOption_run (h : r.Means m) (t : Tree) {rest : List Char} (he : Ends rest) :
    (r.run (t.chars ++ rest)).toOption = (m t).map (·, rest) :=
  h .none t rest he

theorem Means.of?_eq (h : r.Means m) : r.of? = m := by
  funext t
  have alone := h.toOption_run t ends_nil
  rw [List.append_nil] at alone
  rw [of?, alone, Option.map_map]
  exact Option.map_id'

theorem Means.isLocal (h : r.Means m) : r.IsLocal := by
  rw [IsLocal, h.of?_eq]
  exact h

theorem Means.map (h : r.Means m) (f : α → β) : (r.map f).Means fun t => (m t).map f := by
  intro g t rest he
  rw [Reader.map, toOption_map, h g t rest he, Option.map_map, Option.map_map]
  rfl

end Reader

/-! ### Numbers, strings and characters -/

namespace Tree

/-- The number of an integer literal without a sign, if it fits in 64 bits. -/
def number? (t : Tree) : Option Nat := t.natural?.filter (· < 2 ^ 64)

def character? (t : Tree) : Option Char :=
  t.text?.bind fun s => match s.toList with
    | [c] => some c
    | _ => none

end Tree

theorem Numeral.chars_ne_cons (n : Numeral) {c : Char} (hm : c ≠ '-') (hd : c.isDigit = false)
    (rest cs : List Char) : n.chars ++ rest ≠ c :: cs := by
  obtain ⟨d, ds, hn, hd'⟩ := n.exists_head
  rw [hn]
  intro h
  obtain rfl : d = c := (List.cons.inj h).1
  rcases hd' with rfl | hd'
  · exact hm rfl
  · exact Bool.false_ne_true (hd.symm.trans hd')

theorem readNatural_digit (g : Gap) {c : Char} (h : c.isDigit = true) (cs : List Char) :
    readNatural (g.chars ++ c :: cs) = readNumber false (c :: cs) >>= asNatural "usize" := by
  rw [readNatural, skipSpace_gap_cons g cs (Starts.isSpace_eq_false (.inr h)).1]
  split <;> simp_all

theorem Numeral.toOption_readNatural (n : Numeral) (g : Gap) {rest : List Char} (h : Ends rest) :
    (readNatural (g.chars ++ (n.chars ++ rest))).toOption =
      (n.natural?.filter (· < 2 ^ 64)).map (·, rest) := by
  have hw := n.toOption_readNumber "usize" h
  obtain ⟨c, cs, hc, hd⟩ := n.whole.exists_cons
  rw [chars, List.append_assoc, List.append_assoc]
  cases hn : n.negative with
  | true =>
      rw [hn] at hw
      rw [if_pos rfl, List.singleton_append, readNatural, skipSpace_gap_cons g _ (by decide)]
      exact hw
  | false =>
      rw [hn, hc] at hw
      rw [hc]
      exact (congrArg Except.toOption (readNatural_digit g hd _)).trans hw

theorem toOption_readNatural (g : Gap) (t : Tree) {rest : List Char} (h : Ends rest) :
    (readNatural (g.chars ++ (t.chars ++ rest))).toOption = t.number?.map (·, rest) := by
  have hs := skipSpace_gap g (t.isSpace_head? rest)
  cases t with
  | number n =>
      rw [Tree.chars]
      exact n.toOption_readNatural g h
  | boolean b =>
      rw [readNatural, hs]
      cases b <;> rw [Tree.chars] <;> rfl
  | null | string _ | list _ _ | object _ _ =>
      rw [readNatural, hs, Tree.chars]
      rfl

theorem toOption_readText (expected : String) (g : Gap) (t : Tree) (rest : List Char) :
    (readText expected (g.chars ++ (t.chars ++ rest))).toOption = t.text?.map (·, rest) := by
  rw [readText, skipSpace_gap g (t.isSpace_head? rest)]
  cases t with
  | string s =>
      rw [Tree.chars]
      exact toOption_readString s rest
  | number n =>
      rw [Tree.chars]
      split
      · rfl
      · next he => exact absurd he (n.chars_ne_cons (by decide) rfl _ _)
      · rfl
  | boolean b => cases b <;> rw [Tree.chars] <;> rfl
  | null | list _ _ | object _ _ =>
      rw [Tree.chars]
      rfl

theorem toOption_readCharacter (g : Gap) (t : Tree) (rest : List Char) :
    (readCharacter (g.chars ++ (t.chars ++ rest))).toOption = t.character?.map (·, rest) := by
  rw [readCharacter, toOption_bind, toOption_readText, Tree.character?]
  cases t.text? with
  | none => rfl
  | some s =>
      simp only [Option.map_some, Option.bind_some]
      split <;> simp_all [Except.toOption]

namespace Reader

theorem means_natural : natural.Means Tree.number? := fun g t _ h => toOption_readNatural g t h

theorem means_string : string.Means Tree.text? :=
  fun g t rest _ => toOption_readText "a string" g t rest

theorem means_character : character.Means Tree.character? :=
  fun g t rest _ => toOption_readCharacter g t rest

end Reader

/-! ### Choices -/

/-- The name of a choice: a string, or the key of an object whose only member is null. -/
def Tree.name? : Tree → Option String
  | .string s => s.text?
  | .object _ [⟨_, key, _, _, .null, _⟩] => key.text?
  | _ => none

def Tree.isNull : Tree → Bool
  | .null => true
  | _ => false

theorem toOption_readNull (g : Gap) (t : Tree) (rest : List Char) :
    (readNull (g.chars ++ (t.chars ++ rest))).toOption = if t.isNull then some rest else none := by
  rw [readNull, skipSpace_gap g (t.isSpace_head? rest)]
  cases t with
  | number n =>
      rw [Tree.chars]
      split
      · rfl
      · next he => exact absurd he (n.chars_ne_cons (by decide) rfl _ _)
      · rfl
  | boolean b => cases b <;> rw [Tree.chars] <;> rfl
  | null | string _ | list _ _ | object _ _ =>
      rw [Tree.chars]
      rfl

theorem toOption_closeEntry (g : Gap) (members : List Member) (rest : List Char) :
    (closeEntry (g.chars ++ (membersChars false members ++ '\x7d' :: rest))).toOption =
      if members.isEmpty then some rest else none := by
  cases members with
  | nil =>
      rw [membersChars_nil, List.nil_append, closeEntry, skipSpace_gap_cons g rest (by decide)]
      rfl
  | cons member members =>
      rw [membersChars_cons, separator, if_neg Bool.false_ne_true, List.singleton_append,
        List.cons_append, closeEntry, skipSpace_gap_cons g _ (by decide)]
      rfl

theorem toOption_chooseName {α : Type} (choices : List (String × α)) (name : String)
    (rest : List Char) :
    (chooseName choices name rest).toOption = (choices.lookup name).map (·, rest) := by
  rw [chooseName]
  cases choices.lookup name <;> rfl

theorem readEntryKey_body (g g' : Gap) (key : Literal) (rest : List Char) :
    readEntryKey (g.chars ++ (g'.chars ++ '"' :: (key.body ++ rest))) =
      readString (key.body ++ rest) := by
  rw [readEntryKey, skipSpace_gaps_cons g g' _ (by decide)]
  rfl

theorem name?_object_cons (gap : Gap) (member : Member) (members : List Member) :
    (Tree.object gap (member :: members)).name? =
      if member.value.isNull && members.isEmpty then member.key.text? else none := by
  obtain ⟨_, key, _, _, value, _⟩ := member
  cases value <;> cases members <;> rfl

section

variable {α : Type}

/-- Behind the key of an entry its value has to be null, and no other entry may follow. -/
theorem toOption_readEntryValue (a : α) (member : Member) (members : List Member)
    (rest : List Char) :
    (do
      let cs ← readColon (member.behindKey.chars ++ ':' :: (member.beforeValue.chars ++
        (member.value.chars ++ (member.behind.chars ++
          (membersChars false members ++ '\x7d' :: rest)))))
      let cs ← readNull cs
      let cs ← closeEntry cs
      .ok (a, cs)).toOption =
      if member.value.isNull && members.isEmpty then some (a, rest) else none := by
  rw [readColon_gap]
  simp only [toOption_bind, toOption_ok, Option.bind_some, toOption_readNull]
  cases member.value.isNull with
  | false => rfl
  | true =>
      simp only [if_pos, Option.bind_some, toOption_closeEntry]
      cases members.isEmpty <;> rfl

variable (choices : List (String × α))

theorem toOption_readChoice_object (gap : Gap) (members : List Member) (g : Gap)
    (rest : List Char) :
    (readChoice choices (g.chars ++ ((Tree.object gap members).chars ++ rest))).toOption =
      ((Tree.object gap members).name?.bind fun name => choices.lookup name).map (·, rest) := by
  rw [readChoice, skipSpace_gap g ((Tree.object gap members).isSpace_head? rest), Tree.chars]
  cases members with
  | nil =>
      simp only [membersChars_nil, List.cons_append, List.nil_append, List.append_assoc]
      rw [readEntryKey, skipSpace_gap_cons gap rest (by decide)]
      rfl
  | cons member members =>
      -- the name is looked up before the rest of the entry is read
      rw [name?_object_cons]
      simp only [membersChars_cons, List.cons_append, List.append_assoc, separator, if_pos,
        List.nil_append, readEntryKey_body, toOption_bind (readString _), toOption_readString]
      cases member.key.text? with
      | none => simp
      | some name =>
          simp only [Option.map_some, Option.bind_some, toOption_bind (chooseName ..),
            toOption_chooseName]
          cases hl : choices.lookup name with
          | none => split <;> simp [hl]
          | some a =>
              rw [Option.map_some, Option.bind_some]
              refine (toOption_readEntryValue a member members rest).trans ?_
              split <;> simp [hl]

theorem toOption_readChoice (g : Gap) (t : Tree) (rest : List Char) :
    (readChoice choices (g.chars ++ (t.chars ++ rest))).toOption =
      (t.name?.bind fun name => choices.lookup name).map (·, rest) := by
  have hs := skipSpace_gap g (t.isSpace_head? rest)
  cases t with
  | object gap members => exact toOption_readChoice_object choices gap members g rest
  | string s =>
      rw [readChoice, hs, Tree.chars, Tree.name?]
      refine (toOption_bind (readString (s.body ++ rest)) _).trans ?_
      rw [toOption_readString]
      cases s.text? with
      | none => rfl
      | some name => exact toOption_chooseName choices name rest
  | number n =>
      rw [readChoice, hs, Tree.chars]
      split
      · rfl
      · next he => exact absurd he (n.chars_ne_cons (by decide) rfl _ _)
      · next he => exact absurd he (n.chars_ne_cons (by decide) rfl _ _)
      · rfl
  | boolean b =>
      rw [readChoice, hs]
      cases b <;> rw [Tree.chars] <;> rfl
  | null | list _ _ =>
      rw [readChoice, hs, Tree.chars]
      rfl

theorem Reader.means_choice :
    (Reader.choice choices).Means fun t => t.name?.bind fun name => choices.lookup name :=
  fun g t rest _ => toOption_readChoice choices g t rest

end

/-! ### Lists -/

theorem nextItem_close (fresh : Bool) (g : Gap) (rest : List Char) :
    nextItem fresh (g.chars ++ ']' :: rest) = .ok (.close rest) := by
  rw [nextItem, skipSpace_gap_cons g rest (by decide)]
  rfl

theorem nextItem_fresh {c : Char} {cs rest : List Char} (h : skipSpace cs = c :: rest)
    (hc : c ≠ ']') : nextItem true cs = .ok (.entry (c :: rest)) := by
  rw [nextItem, h]
  split <;> simp_all

theorem nextItem_comma {c : Char} {cs rest : List Char} (h : skipSpace cs = c :: rest)
    (hc : c ≠ ']') (g : Gap) :
    nextItem false (g.chars ++ ',' :: cs) = .ok (.entry (c :: rest)) := by
  rw [nextItem, skipSpace_gap_cons g cs (by decide)]
  split
  · next he => cases he
  · next he => cases he
  · next he =>
      obtain ⟨rfl, rfl⟩ := List.cons.inj he
      rw [if_neg Bool.false_ne_true, if_pos rfl, h]
      split <;> simp_all

theorem nextItem_separator (fresh : Bool) (g g' : Gap) (t : Tree) (rest : List Char) :
    nextItem fresh (g.chars ++ (separator fresh ++ (g'.chars ++ (t.chars ++ rest)))) =
      .ok (.entry (t.chars ++ rest)) := by
  obtain ⟨c, cs, ht, hc⟩ := t.exists_head
  obtain ⟨_, _, hc, _⟩ := hc.isSpace_eq_false
  have head := t.isSpace_head? rest
  rw [ht, List.cons_append] at head ⊢
  cases fresh with
  | true => exact nextItem_fresh (skipSpace_gaps g g' head) hc
  | false => exact nextItem_comma (skipSpace_gap g' head) hc g

section

variable {α : Type} {r : Reader α} {m : Tree → Option α} {fresh : Bool} {read : Array α}

theorem readItems_close {cs rest : List Char} (h : nextItem fresh cs = .ok (.close rest)) :
    readItems r fresh read cs = .ok (read.toList, rest) := by
  rw [readItems]
  split
  · next he => rw [h] at he; cases he
  · next he =>
      rw [h] at he
      cases he
      rfl
  · next he => rw [h] at he; cases he

theorem readItems_entry {cs start : List Char} (h : nextItem fresh cs = .ok (.entry start)) :
    readItems r fresh read cs =
      r.run start >>= fun (a, rest) => readItems r false (read.push a) rest := by
  rw [readItems]
  split
  · next he => rw [h] at he; cases he
  · next he => rw [h] at he; cases he
  · next he =>
      rw [h] at he
      cases he
      cases r.run start <;> rfl

variable (m) in
/-- What a list is made of, if `m` makes something of each item. -/
def Tree.list? : Tree → Option (List α)
  | .list _ items => items.mapM fun item => m item.value
  | _ => none

theorem toOption_readItems (h : r.Means m) (items : List Item) (fresh : Bool) (read : Array α)
    (g : Gap) (rest : List Char) :
    (readItems r fresh read (g.chars ++ (itemsChars fresh items ++ ']' :: rest))).toOption =
      (items.mapM fun item => m item.value).map fun as => (read.toList ++ as, rest) := by
  induction items generalizing fresh read g with
  | nil =>
      rw [itemsChars_nil, List.nil_append, readItems_close (nextItem_close fresh g rest)]
      simp [toOption_ok]
  | cons item items ih =>
      have ends := item.behind.ends (ends_items items rest)
      have first := h.toOption_run item.value ends
      simp only [itemsChars_cons, List.append_assoc]
      rw [readItems_entry (nextItem_separator fresh g item.before item.value _), toOption_bind]
      rw [first, List.mapM_cons]
      cases m item.value with
      | none => rfl
      | some a =>
          simp only [Option.map_some, Option.bind_some, ih]
          cases items.mapM fun item => m item.value <;> simp

theorem toOption_readList (h : r.Means m) (g : Gap) (t : Tree) (rest : List Char) :
    (readList r (g.chars ++ (t.chars ++ rest))).toOption = (t.list? m).map (·, rest) := by
  rw [readList, skipSpace_gap g (t.isSpace_head? rest)]
  cases t with
  | list gap items =>
      rw [Tree.chars, List.cons_append, List.append_assoc, List.append_assoc]
      exact toOption_readItems h items true #[] gap rest
  | number n =>
      rw [Tree.chars]
      split
      · rfl
      · next he => exact absurd he (n.chars_ne_cons (by decide) rfl _ _)
      · rfl
  | boolean b => cases b <;> rw [Tree.chars] <;> rfl
  | null | string _ | object _ _ =>
      rw [Tree.chars]
      rfl

theorem Reader.Means.list (h : r.Means m) : (Reader.list r).Means (Tree.list? m) :=
  fun g t rest _ => toOption_readList h g t rest

end

/-! ### Documents -/

namespace Reader

variable {α : Type}

theorem Means.toOption_load {r : Reader α} {m : Tree → Option α} (h : r.Means m) (d : Document) :
    (r.load d.text).toOption = m d.value := by
  have run := h d.before d.value d.behind.chars (d.behind.chars.append_nil ▸ d.behind.ends ends_nil)
  have behind : skipSpace d.behind.chars = [] :=
    d.behind.chars.append_nil ▸ skipSpace_gap d.behind fun _ hc => nomatch hc
  have text : d.text.toList = d.before.chars ++ (d.value.chars ++ d.behind.chars) := by
    rw [Document.text, String.toList_ofList, List.append_assoc]
  rw [load, toOption_mapError, text, only, toOption_bind, run]
  cases m d.value with
  | none => rfl
  | some a =>
      simp only [Option.map_some, Option.bind_some, behind]
      rfl

theorem Means.load_eq_ok_iff {r : Reader α} {m : Tree → Option α} (h : r.Means m) (d : Document)
    (a : α) : r.load d.text = .ok a ↔ m d.value = some a := by
  rw [← h.toOption_load d]
  cases r.load d.text with
  | error f => simp [Except.toOption]
  | ok b => simp [Except.toOption]

/-- A text that cannot be read is a failure of configuration. -/
theorem exists_reason_of_load (r : Reader α) {text : String} {f : Failure}
    (h : r.load text = .error f) : ∃ reason, f = .configuration reason := by
  unfold load at h
  cases hr : r.only text.toList with
  | error fault =>
      rw [hr] at h
      cases h
      exact ⟨_, rfl⟩
  | ok a => rw [hr] at h; cases h

end Reader

end LineLexer.Json
