import LineLexer.Proofs.Json.Members
import LineLexer.Report.Json

/-!
Written reports and streams are read back as they were. Writing chooses one text of a value and
reading accepts every text of it, so that the two meet in the texts of a value, whatever characters
the lexemes and contexts hold. Numbers have to fit in 64 bits.
-/

namespace LineLexer

open Json

/-! ### Tokens -/

namespace Token

theorem lookup_choices (k : Kind) : Kind.choices.lookup k.name = some k := by
  cases k with
  | keyword word => cases word <;> rfl
  | _ => rfl

def Kind.ofTree? (t : Tree) : Option Kind := t.name?.bind fun name => Kind.choices.lookup name

theorem Kind.means_reader : Kind.reader.Means Kind.ofTree? := Reader.means_choice Kind.choices

theorem Kind.ofTree?_eq {k : Kind} {t : Tree} (h : t.Spells (.string k.name)) :
    ofTree? t = some k := by
  rw [ofTree?, h.name?_eq, Option.bind_some, lookup_choices]

theorem isLocal_form : ∀ field ∈ form.fields, field.value.IsLocal := by
  intro field hf
  simp only [form, List.mem_cons, List.not_mem_nil, or_false] at hf
  rcases hf with rfl | rfl | rfl
  · exact Field.isLocal_ofOption Kind.means_reader
  · exact Field.isLocal_ofOption Reader.means_string
  · exact Field.isLocal_ofOption Reader.means_natural

theorem means_streamReader : streamReader.Means (Tree.list? form.of?) :=
  (Record.means_record isLocal_form).list

theorem of?_of_spells {token : Token} (hl : token.line < 2 ^ 64) {t : Tree}
    (h : t.Spells token.toJson) : form.of? t = some token := by
  cases h with
  | object h =>
      obtain ⟨_, h, first⟩ := Record.exists_ofMembers?_of_spell (r := form) h rfl
        Kind.means_reader fun _ => Kind.ofTree?_eq
      obtain ⟨_, h, second⟩ := Record.exists_ofMembers?_of_spell (r := form) h rfl
        Reader.means_string fun _ => Tree.Spells.text?_eq
      obtain ⟨_, h, third⟩ := Record.exists_ofMembers?_of_spell (r := form) h rfl
        Reader.means_natural fun _ ht => ht.number?_eq hl
      cases h
      exact (first _ rfl).trans <| (second _ rfl).trans <| third _ rfl

theorem stream_of_spells {tokens : List Token} (hl : ∀ token ∈ tokens, token.line < 2 ^ 64)
    {t : Tree} (h : t.Spells (streamToJson tokens)) : t.list? form.of? = some tokens :=
  h.list?_eq fun token ht _ => of?_of_spells (hl token ht)

end Token

/-! ### Diagnostics -/

namespace Diagnostic

def Cause.ofTree? (t : Tree) : Option Cause := t.name?.bind fun name => Cause.choices.lookup name

theorem Cause.means_choice : (Reader.choice Cause.choices).Means Cause.ofTree? :=
  Reader.means_choice Cause.choices

theorem Cause.ofTree?_eq {c : Cause} {t : Tree} (h : t.Spells (.string c.name)) :
    ofTree? t = some c := by
  rw [ofTree?, h.name?_eq]
  cases c <;> rfl

theorem isLocal_form : ∀ field ∈ form.fields, field.value.IsLocal := by
  intro field hf
  simp only [form, List.mem_cons, List.not_mem_nil, or_false] at hf
  rcases hf with rfl | rfl | rfl | rfl
  · exact Field.isLocal_ofOption Cause.means_choice
  · exact Field.isLocal_ofOption Reader.means_natural
  · exact Field.isLocal_ofOption Reader.means_character
  · exact Field.isLocal_ofOption Reader.means_string

theorem means_reader : (Reader.list reader).Means (Tree.list? form.of?) :=
  (Record.means_record isLocal_form).list

theorem of?_of_spells {d : Diagnostic} (hl : d.line < 2 ^ 64) {t : Tree} (h : t.Spells d.toJson) :
    form.of? t = some d := by
  cases h with
  | object h =>
      obtain ⟨_, h, first⟩ := Record.exists_ofMembers?_of_spell (r := form) h rfl
        Cause.means_choice fun _ => Cause.ofTree?_eq
      obtain ⟨_, h, second⟩ := Record.exists_ofMembers?_of_spell (r := form) h rfl
        Reader.means_natural fun _ ht => ht.number?_eq hl
      obtain ⟨_, h, third⟩ := Record.exists_ofMembers?_of_spell (r := form) h rfl
        Reader.means_character fun _ => Tree.Spells.character?_eq
      obtain ⟨_, h, fourth⟩ := Record.exists_ofMembers?_of_spell (r := form) h rfl
        Reader.means_string fun _ => Tree.Spells.text?_eq
      cases h
      exact (first _ rfl).trans <| (second _ rfl).trans <| (third _ rfl).trans <| fourth _ rfl

end Diagnostic

/-! ### Reports -/

namespace Report

/-- Every number of the report fits in 64 bits. -/
structure Fits (r : Report) : Prop where
  tokens : ∀ token ∈ r.tokens, token.line < 2 ^ 64
  diagnostics : ∀ diagnostic ∈ r.diagnostics, diagnostic.line < 2 ^ 64
  linesScanned : r.linesScanned < 2 ^ 64
  linesAbandoned : r.linesAbandoned < 2 ^ 64

theorem isLocal_form : ∀ field ∈ form.fields, field.value.IsLocal := by
  intro field hf
  simp only [form, List.mem_cons, List.not_mem_nil, or_false] at hf
  rcases hf with rfl | rfl | rfl | rfl
  · exact Field.isLocal_ofOption Token.means_streamReader
  · exact Field.isLocal_ofOption Diagnostic.means_reader
  · exact Field.isLocal_ofOption Reader.means_natural
  · exact Field.isLocal_ofOption Reader.means_natural

theorem of?_of_spells {r : Report} (hr : r.Fits) {t : Tree} (h : t.Spells r.toJson) :
    form.of? t = some r := by
  cases h with
  | object h =>
      obtain ⟨_, h, first⟩ := Record.exists_ofMembers?_of_spell (r := form) h rfl
        Token.means_streamReader fun _ => Token.stream_of_spells hr.tokens
      obtain ⟨_, h, second⟩ := Record.exists_ofMembers?_of_spell (r := form) h rfl
        Diagnostic.means_reader fun _ ht =>
          ht.list?_eq fun d hd _ => Diagnostic.of?_of_spells (hr.diagnostics d hd)
      obtain ⟨_, h, third⟩ := Record.exists_ofMembers?_of_spell (r := form) h rfl
        Reader.means_natural fun _ ht => ht.number?_eq hr.linesScanned
      obtain ⟨_, h, fourth⟩ := Record.exists_ofMembers?_of_spell (r := form) h rfl
        Reader.means_natural fun _ ht => ht.number?_eq hr.linesAbandoned
      cases h
      exact (first _ rfl).trans <| (second _ rfl).trans <| (third _ rfl).trans <| fourth _ rfl

/-- A report and a stream are loaded as they were written, from the written text and from every
other text of it. -/
theorem loaded_as_written (r : Report) (tokens : List Token) (hr : r.Fits)
    (ht : ∀ token ∈ tokens, token.line < 2 ^ 64) :
    (ofJson r.json = .ok r ∧ ∀ d : Document, d.value.Spells r.toJson → ofJson d.text = .ok r) ∧
    (Token.streamReader.load (Token.streamToJson tokens).text = .ok tokens ∧
      ∀ d : Document, d.value.Spells (Token.streamToJson tokens) →
        Token.streamReader.load d.text = .ok tokens) := by
  constructor
  · exact (Record.means_record isLocal_form).load_of_spells fun _ => of?_of_spells hr
  · exact Token.means_streamReader.load_of_spells fun _ => Token.stream_of_spells ht

theorem loaded_as_written_escapes :
    let token : Token := ⟨.string, "\"\\\u0001\u2028\"", 2 ^ 64 - 1⟩
    let diagnostic : Diagnostic := ⟨.unrecognizedCharacter, 2 ^ 64 - 1, '\u2028', "\u2028\n\"\\"⟩
    let r : Report := ⟨[token], [diagnostic], 2 ^ 64 - 1, 1⟩
    r.Fits ∧ ofJson r.json = .ok r ∧
      Token.streamReader.load (Token.streamToJson [token]).text = .ok [token] := by
  intro token diagnostic r
  have hr : r.Fits := ⟨by decide, by decide, by decide, by decide⟩
  have loaded := loaded_as_written r [token] hr hr.tokens
  exact ⟨hr, loaded.1.1, loaded.2.1⟩

end Report
end LineLexer
