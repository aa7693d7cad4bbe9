import LineLexer.Options.Json
import LineLexer.Proofs.Json.Members

/-!
Options documents. An object is accepted exactly if each of its members sets an option to a value
that the option admits and no option is set twice; the options are then the defaults except for what
the members set, in whatever order they stand. Anything else is a failure of configuration.
-/

namespace LineLexer.Options

open Json

/-! ### What a document has to say -/

def recoveryOf? (t : Tree) : Option Recovery :=
  t.name?.bind fun name =>
    [("report-and-skip-line", Recovery.skipLine), ("fail-fast", .failFast)].lookup name

def openStringsOf? (t : Tree) : Option OpenStrings :=
  t.name?.bind fun name => [("report", OpenStrings.report), ("silent", .silent)].lookup name

def vocabularyOf? (t : Tree) : Option Vocabulary :=
  t.name?.bind fun name =>
    [("initial", Vocabulary.initial), ("current", .extended), ("extended", .extended)].lookup name

/-- A member that sets an option to a value that the option admits. -/
inductive Admits (member : Member) : Prop
  | recovery (key : member.key.text? = some "on-error")
      (value : (recoveryOf? member.value).isSome)
  | openStrings (key : member.key.text? = some "unterminated-strings")
      (value : (openStringsOf? member.value).isSome)
  | vocabulary (key : member.key.text? = some "keywords")
      (value : (vocabularyOf? member.value).isSome)
  | contextWidth (key : member.key.text? = some "context-width")
      (value : member.value.number?.isSome)

structure Admissible (members : List Member) : Prop where
  each : ∀ member ∈ members, Admits member
  once : (members.map (·.key.text?)).Nodup

/-- An option as the members leave it: what the member of its key says, or the default. -/
structure Sets {β : Type} (members : List Member) (key : String) (read : Tree → Option β)
    (default b : β) : Prop where
  listed : ∀ member ∈ members, member.key.text? = some key → read member.value = some b
  absent : (∀ member ∈ members, member.key.text? ≠ some key) → b = default

/-- The options are the defaults with exactly the listed ones replaced. -/
structure Replaces (members : List Member) (o : Options) : Prop where
  recovery : Sets members "on-error" recoveryOf? .skipLine o.recovery
  openStrings : Sets members "unterminated-strings" openStringsOf? .report o.openStrings
  vocabulary : Sets members "keywords" vocabularyOf? .extended o.vocabulary
  contextWidth : Sets members "context-width" Tree.number? 10 o.contextWidth

/-! ### The fields of options -/

theorem means_recovery : (Reader.choice Recovery.choices).Means recoveryOf? :=
  Reader.means_choice Recovery.choices

theorem means_openStrings : (Reader.choice OpenStrings.choices).Means openStringsOf? :=
  Reader.means_choice OpenStrings.choices

theorem means_vocabulary : (Reader.choice Vocabulary.choices).Means vocabularyOf? :=
  Reader.means_choice Vocabulary.choices

/-- Each field leaves the parts of the draft that belong to the others as they are. -/
theorem keeps_form : ∀ field ∈ form.fields,
    (field.key ≠ "on-error" → field.Keeps (·.recovery?)) ∧
    (field.key ≠ "unterminated-strings" → field.Keeps (·.openStrings?)) ∧
    (field.key ≠ "keywords" → field.Keeps (·.vocabulary?)) ∧
    (field.key ≠ "context-width" → field.Keeps (·.contextWidth?)) := by
  intro field hf
  simp only [form, List.mem_cons, List.not_mem_nil, or_false] at hf
  rcases hf with rfl | rfl | rfl | rfl
  · exact ⟨fun h => absurd rfl h, fun _ => Field.keeps_ofOption fun _ _ => rfl,
      fun _ => Field.keeps_ofOption fun _ _ => rfl, fun _ => Field.keeps_ofOption fun _ _ => rfl⟩
  · exact ⟨fun _ => Field.keeps_ofOption fun _ _ => rfl, fun h => absurd rfl h,
      fun _ => Field.keeps_ofOption fun _ _ => rfl, fun _ => Field.keeps_ofOption fun _ _ => rfl⟩
  · exact ⟨fun _ => Field.keeps_ofOption fun _ _ => rfl,
      fun _ => Field.keeps_ofOption fun _ _ => rfl, fun h => absurd rfl h,
      fun _ => Field.keeps_ofOption fun _ _ => rfl⟩
  · exact ⟨fun _ => Field.keeps_ofOption fun _ _ => rfl,
      fun _ => Field.keeps_ofOption fun _ _ => rfl, fun _ => Field.keeps_ofOption fun _ _ => rfl,
      fun h => absurd rfl h⟩

theorem lawful_form : form.Lawful where
  fills := by
    intro field hf
    simp only [form, List.mem_cons, List.not_mem_nil, or_false] at hf
    rcases hf with rfl | rfl | rfl | rfl <;> exact Field.fills_ofOption fun _ _ => rfl
  keeps := by
    intro field hf other ho hn
    obtain ⟨h₁, h₂, h₃, h₄⟩ := keeps_form field hf
    simp only [form, List.mem_cons, List.not_mem_nil, or_false] at ho
    rcases ho with rfl | rfl | rfl | rfl
    · exact (h₁ hn).isSome
    · exact (h₂ hn).isSome
    · exact (h₃ hn).isSome
    · exact (h₄ hn).isSome

theorem isLocal_form : ∀ field ∈ form.fields, field.value.IsLocal := by
  intro field hf
  simp only [form, List.mem_cons, List.not_mem_nil, or_false] at hf
  rcases hf with rfl | rfl | rfl | rfl
  · exact Field.isLocal_ofOption means_recovery
  · exact Field.isLocal_ofOption means_openStrings
  · exact Field.isLocal_ofOption means_vocabulary
  · exact Field.isLocal_ofOption Reader.means_natural

theorem slot_recovery : form.Slot "on-error" (·.recovery?) recoveryOf? :=
  Record.slot_ofOption rfl means_recovery (fun _ _ => rfl) fun field hf => (keeps_form field hf).1

theorem slot_openStrings : form.Slot "unterminated-strings" (·.openStrings?) openStringsOf? :=
  Record.slot_ofOption rfl means_openStrings (fun _ _ => rfl) fun field hf =>
    (keeps_form field hf).2.1

theorem slot_vocabulary : form.Slot "keywords" (·.vocabulary?) vocabularyOf? :=
  Record.slot_ofOption rfl means_vocabulary (fun _ _ => rfl) fun field hf =>
    (keeps_form field hf).2.2.1

theorem slot_contextWidth : form.Slot "context-width" (·.contextWidth?) Tree.number? :=
  Record.slot_ofOption rfl Reader.means_natural (fun _ _ => rfl) fun field hf =>
    (keeps_form field hf).2.2.2

/-! ### Which members are taken -/

theorem isSome_fill?_form_iff (member : Member) :
    (form.fill? {} member).isSome ↔ Admits member := by
  constructor
  · intro h
    obtain ⟨_, h⟩ := Option.isSome_iff_exists.mp h
    obtain ⟨key, hk, ⟨field, fill, hf, _, hv, _⟩ | ⟨_, ho, _⟩⟩ := Record.fill?_cases h
    · have hv := Option.isSome_iff_exists.mpr ⟨fill, hv⟩
      obtain ⟨hm, rfl⟩ := Record.field?_eq_some hf
      simp only [form, List.mem_cons, List.not_mem_nil, or_false] at hm
      rcases hm with rfl | rfl | rfl | rfl
      · exact .recovery hk ((Field.isSome_of?_ofOption means_recovery _).mp hv)
      · exact .openStrings hk ((Field.isSome_of?_ofOption means_openStrings _).mp hv)
      · exact .vocabulary hk ((Field.isSome_of?_ofOption means_vocabulary _).mp hv)
      · exact .contextWidth hk ((Field.isSome_of?_ofOption Reader.means_natural _).mp hv)
    · cases ho
  · intro h
    cases h with
    | recovery hk hv =>
        exact (Record.isSome_fill?_iff hk).mpr
          ⟨rfl, (Field.isSome_of?_ofOption means_recovery _).mpr hv⟩
    | openStrings hk hv =>
        exact (Record.isSome_fill?_iff hk).mpr
          ⟨rfl, (Field.isSome_of?_ofOption means_openStrings _).mpr hv⟩
    | vocabulary hk hv =>
        exact (Record.isSome_fill?_iff hk).mpr
          ⟨rfl, (Field.isSome_of?_ofOption means_vocabulary _).mpr hv⟩
    | contextWidth hk hv =>
        exact (Record.isSome_fill?_iff hk).mpr
          ⟨rfl, (Field.isSome_of?_ofOption Reader.means_natural _).mpr hv⟩

theorem Admits.exists_key {member : Member} (h : Admits member) :
    ∃ key, member.key.text? = some key ∧ (form.field? key).isSome := by
  cases h with
  | recovery hk _ | openStrings hk _ | vocabulary hk _ | contextWidth hk _ => exact ⟨_, hk, rfl⟩

theorem Admits.apart_iff {member : Member} (h : Admits member) (other : Member) :
    form.Apart member other ↔ member.key.text? ≠ other.key.text? := by
  obtain ⟨key, hk, hf⟩ := h.exists_key
  constructor
  · intro ha he
    exact ha key hf hk (he ▸ hk)
  · intro hn key' _ hk' ho
    exact hn (hk'.trans ho.symm)

theorem isSome_foldlM_form_iff (members : List Member) :
    (members.foldlM form.fill? {}).isSome ↔ Admissible members := by
  rw [Record.isSome_foldlM_fill? lawful_form]
  simp only [isSome_fill?_form_iff]
  have apart (each : ∀ member ∈ members, Admits member) :
      members.Pairwise form.Apart ↔ (members.map (·.key.text?)).Nodup := by
    rw [List.Nodup, List.pairwise_map]
    exact List.Pairwise.iff_of_mem fun hm _ => (each _ hm).apart_iff _
  constructor
  · rintro ⟨each, hp⟩
    exact ⟨each, (apart each).mp hp⟩
  · rintro ⟨each, once⟩
    exact ⟨each, (apart each).mpr once⟩

theorem sets_of_slot {β : Type} {key : String} {get : Draft → Option β} {read : Tree → Option β}
    {members : List Member} {filled : Draft} (hs : form.Slot key get read)
    (hf : (form.field? key).isSome) (hb : get {} = none)
    (h : members.foldlM form.fill? {} = some filled) (hp : members.Pairwise form.Apart)
    (default : β) : Sets members key read default ((get filled).getD default) where
  listed := by
    intro member hm hk
    obtain ⟨b, hr, hg⟩ := hs.get_of_mem h hp hf member hm hk
    rw [hr, hg, Option.getD_some]
  absent := by
    intro hk
    rw [hs.get_of_foldlM h hk, hb, Option.getD_none]

theorem replaces_of_foldlM {members : List Member} {filled : Draft}
    (h : members.foldlM form.fill? {} = some filled) : Replaces members filled.toOptions := by
  have hp := ((Record.isSome_foldlM_fill? lawful_form members {}).mp
    (Option.isSome_iff_exists.mpr ⟨filled, h⟩)).2
  exact {
    recovery := sets_of_slot slot_recovery rfl rfl h hp .skipLine
    openStrings := sets_of_slot slot_openStrings rfl rfl h hp .report
    vocabulary := sets_of_slot slot_vocabulary rfl rfl h hp .extended
    contextWidth := sets_of_slot slot_contextWidth rfl rfl h hp 10 }

/-! ### Documents -/

theorem ofJson_eq_ok_iff (d : Document) (o : Options) :
    ofJson d.text = .ok o ↔ form.of? d.value = some o :=
  (Record.means_record isLocal_form).load_eq_ok_iff d o

/-- The options that the members of an object leave. -/
theorem of?_object_eq_some_iff (gap : Gap) (members : List Member) (o : Options) :
    form.of? (.object gap members) = some o ↔
      ∃ filled, members.foldlM form.fill? {} = some filled ∧ filled.toOptions = o := by
  rw [Record.of?, Record.ofMembers?, Option.bind_eq_some_iff]
  refine exists_congr fun filled => and_congr_right fun _ => ?_
  simp [form, Except.toOption]

theorem exists_of?_object_iff (gap : Gap) (members : List Member) :
    (∃ o, form.of? (.object gap members) = some o) ↔ Admissible members := by
  simp only [of?_object_eq_some_iff, ← isSome_foldlM_form_iff, Option.isSome_iff_exists]
  constructor
  · rintro ⟨_, filled, h, _⟩
    exact ⟨filled, h⟩
  · rintro ⟨filled, h⟩
    exact ⟨_, filled, h, rfl⟩

theorem replaces_of_of? {gap : Gap} {members : List Member} {o : Options}
    (h : form.of? (.object gap members) = some o) : Replaces members o := by
  obtain ⟨filled, hf, rfl⟩ := (of?_object_eq_some_iff gap members o).mp h
  exact replaces_of_foldlM hf

/-! ### Written options -/

section

variable {t : Tree}

theorem recoveryOf?_eq {r : Recovery} (h : t.Spells (.string r.name)) :
    recoveryOf? t = some r := by
  rw [recoveryOf?, h.name?_eq]
  cases r <;> rfl

theorem openStringsOf?_eq {s : OpenStrings} (h : t.Spells (.string s.name)) :
    openStringsOf? t = some s := by
  rw [openStringsOf?, h.name?_eq]
  cases s <;> rfl

theorem vocabularyOf?_eq {v : Vocabulary} (h : t.Spells (.string v.name)) :
    vocabularyOf? t = some v := by
  rw [vocabularyOf?, h.name?_eq]
  cases v <;> rfl

end

/-- Every text of written options is read as these options. -/
theorem of?_of_spells {o : Options} (ho : o.contextWidth < 2 ^ 64) {t : Tree}
    (h : t.Spells o.toJson) : form.of? t = some o := by
  cases h with
  | object h =>
      obtain ⟨_, h, first⟩ := Record.exists_ofMembers?_of_spell (r := form) h rfl means_recovery
        fun _ => recoveryOf?_eq
      obtain ⟨_, h, second⟩ := Record.exists_ofMembers?_of_spell (r := form) h rfl
        means_openStrings fun _ => openStringsOf?_eq
      obtain ⟨_, h, third⟩ := Record.exists_ofMembers?_of_spell (r := form) h rfl means_vocabulary
        fun _ => vocabularyOf?_eq
      obtain ⟨_, h, fourth⟩ := Record.exists_ofMembers?_of_spell (r := form) h rfl
        Reader.means_natural fun _ ht => ht.number?_eq ho
      cases h
      exact (first _ rfl).trans <| (second _ rfl).trans <| (third _ rfl).trans <| fourth _ rfl

/-- The text of an object with white space around it. -/
def objectText (before gap : Gap) (members : List Member) (behind : Gap) : String :=
  Document.text ⟨before, .object gap members, behind⟩

/-- Objects are decoded strictly and completely, and what is written for options is read back. -/
theorem decoded_strictly :
    (∀ (before gap : Gap) (members : List Member) (behind : Gap),
      ((∃ o, ofJson (objectText before gap members behind) = .ok o) ↔ Admissible members) ∧
      (∀ o, ofJson (objectText before gap members behind) = .ok o → Replaces members o) ∧
      (∀ f, ofJson (objectText before gap members behind) = .error f →
        ∃ reason, f = .configuration reason)) ∧
    (∀ o : Options, o.contextWidth < 2 ^ 64 →
      ofJson o.toJson.text = .ok o ∧
      ∀ d : Document, d.value.Spells o.toJson → ofJson d.text = .ok o) := by
  constructor
  · intro before gap members behind
    refine ⟨?_, fun o h => ?_, fun f h => Reader.exists_reason_of_load _ h⟩
    · simp only [objectText, ofJson_eq_ok_iff]
      exact exists_of?_object_iff gap members
    · rw [objectText, ofJson_eq_ok_iff] at h
      exact replaces_of_of? h
  · intro o ho
    exact (Record.means_record isLocal_form).load_of_spells fun _ => of?_of_spells ho

/-- A member whose key begins with an escape and whose value is a name with null. -/
def escapedMember : Member where
  before := .none
  key := ⟨.unit ⟨⟨'0', 0, rfl⟩, ⟨'0', 0, rfl⟩, ⟨'6', 6, rfl⟩, ⟨'F', 15, rfl⟩⟩ ::
    "n-error".toList.pmap Piece.plain (by simp)⟩
  behindKey := blankGap
  beforeValue := .none
  value := .object .none
    [⟨.none, ⟨"fail-fast".toList.pmap Piece.plain (by simp)⟩, .none, .none, .null, .none⟩]
  behind := .none

theorem decoded_strictly_escaped :
    ofJson "\x7b\"\\u006Fn-error\" :\x7b\"fail-fast\":null\x7d\x7d" =
      .ok ⟨.failFast, .report, .extended, 10⟩ := by
  have decoded := decoded_strictly.1 .none .none [escapedMember] .none
  have key : escapedMember.key.text? = some "on-error" := by decide
  have admitted : Admits escapedMember := .recovery key (by decide)
  obtain ⟨o, ho⟩ := decoded.1.mpr ⟨by simpa using admitted, List.nodup_singleton _⟩
  have replaced := decoded.2.1 o ho
  have recovery : recoveryOf? escapedMember.value = some o.recovery :=
    replaced.recovery.listed escapedMember List.mem_cons_self key
  have openStrings := replaced.openStrings.absent (by simp [key])
  have vocabulary := replaced.vocabulary.absent (by simp [key])
  have contextWidth := replaced.contextWidth.absent (by simp [key])
  have same : o = ⟨.failFast, .report, .extended, 10⟩ := by
    cases o
    cases recovery
    cases openStrings
    cases vocabulary
    cases contextWidth
    rfl
  exact same ▸ ho

end LineLexer.Options
