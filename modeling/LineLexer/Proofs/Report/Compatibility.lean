import LineLexer.Proofs.Json.Conveyed
import LineLexer.Proofs.Report.RoundTrip

/-!
Reports are loaded from every text that conveys them. Their forms pass over members of other names
and do not depend on the order of members, and the same goes for the tokens and diagnostics within,
so that a report stays what it is when another program has rearranged or extended its document.
-/

namespace LineLexer

open Json

/-! ### Tokens -/

namespace Token

theorem unordered_form : form.Unordered where
  fills := by
    intro field hf
    simp only [form, List.mem_cons, List.not_mem_nil, or_false] at hf
    rcases hf with rfl | rfl | rfl <;> exact Field.fills_ofOption fun _ _ => rfl
  disjoint := by
    simp only [form, List.pairwise_cons, List.forall_mem_cons, List.not_mem_nil, false_implies,
      implies_true, List.Pairwise.nil, and_true]
    refine ⟨⟨?_, ?_⟩, ?_⟩ <;>
      exact Field.disjoint_ofOption (fun _ _ => rfl) (fun _ _ => rfl) fun _ _ _ => rfl

theorem of?_of_conveys {token : Token} (hl : token.line < 2 ^ 64) {t : Tree}
    (h : t.Conveys token.toJson) : form.of? t = some token := by
  refine unordered_form.of?_eq rfl h ⟨some token.kind, some token.lexeme, some token.line⟩ ?_ rfl
  refine .ofOption rfl rfl Kind.means_reader (fun _ ht => Kind.ofTree?_eq ht.spells_string) ?_
  refine .ofOption rfl rfl Reader.means_string (fun _ ht => ht.spells_string.text?_eq) ?_
  refine .ofOption rfl rfl Reader.means_natural (fun _ ht => ht.spells_number.number?_eq hl) ?_
  exact .nil

end Token

/-! ### Diagnostics -/

namespace Diagnostic

theorem unordered_form : form.Unordered where
  fills := by
    intro field hf
    simp only [form, List.mem_cons, List.not_mem_nil, or_false] at hf
    rcases hf with rfl | rfl | rfl | rfl <;> exact Field.fills_ofOption fun _ _ => rfl
  disjoint := by
    simp only [form, List.pairwise_cons, List.forall_mem_cons, List.not_mem_nil, false_implies,
      implies_true, List.Pairwise.nil, and_true]
    refine ⟨⟨?_, ?_, ?_⟩, ⟨?_, ?_⟩, ?_⟩ <;>
      exact Field.disjoint_ofOption (fun _ _ => rfl) (fun _ _ => rfl) fun _ _ _ => rfl

theorem of?_of_conveys {d : Diagnostic} (hl : d.line < 2 ^ 64) {t : Tree}
    (h : t.Conveys d.toJson) : form.of? t = some d := by
  refine unordered_form.of?_eq rfl h
    ⟨some d.cause, some d.line, some d.character, some d.context⟩ ?_ rfl
  refine .ofOption rfl rfl Cause.means_choice (fun _ ht => Cause.ofTree?_eq ht.spells_string) ?_
  refine .ofOption rfl rfl Reader.means_natural (fun _ ht => ht.spells_number.number?_eq hl) ?_
  refine .ofOption rfl rfl Reader.means_character (fun _ ht => ht.spells_string.character?_eq) ?_
  refine .ofOption rfl rfl Reader.means_string (fun _ ht => ht.spells_string.text?_eq) ?_
  exact .nil

end Diagnostic

/-! ### Reports -/

namespace Report

theorem unordered_form : form.Unordered where
  fills := by
    intro field hf
    simp only [form, List.mem_cons, List.not_mem_nil, or_false] at hf
    rcases hf with rfl | rfl | rfl | rfl <;> exact Field.fills_ofOption fun _ _ => rfl
  disjoint := by
    simp only [form, List.pairwise_cons, List.forall_mem_cons, List.not_mem_nil, false_implies,
      implies_true, List.Pairwise.nil, and_true]
    refine ⟨⟨?_, ?_, ?_⟩, ⟨?_, ?_⟩, ?_⟩ <;>
      exact Field.disjoint_ofOption (fun _ _ => rfl) (fun _ _ => rfl) fun _ _ _ => rfl

theorem of?_of_conveys {r : Report} (hr : r.Fits) {t : Tree} (h : t.Conveys r.toJson) :
    form.of? t = some r := by
  have tokens (t : Tree) (ht : t.Conveys (Token.streamToJson r.tokens)) :
      t.list? Token.form.of? = some r.tokens :=
    ht.list?_eq fun token hm _ => Token.of?_of_conveys (hr.tokens token hm)
  have diagnostics (t : Tree) (ht : t.Conveys (.list (r.diagnostics.map (·.toJson)))) :
      t.list? Diagnostic.form.of? = some r.diagnostics :=
    ht.list?_eq fun d hm _ => Diagnostic.of?_of_conveys (hr.diagnostics d hm)
  refine unordered_form.of?_eq rfl h
    ⟨some r.tokens, some r.diagnostics, some r.linesScanned, some r.linesAbandoned⟩ ?_ rfl
  refine .ofOption rfl rfl Token.means_streamReader tokens ?_
  refine .ofOption rfl rfl Diagnostic.means_reader diagnostics ?_
  refine .ofOption rfl rfl Reader.means_natural
    (fun _ ht => ht.spells_number.number?_eq hr.linesScanned) ?_
  refine .ofOption rfl rfl Reader.means_natural
    (fun _ ht => ht.spells_number.number?_eq hr.linesAbandoned) ?_
  exact .nil

/-- Every text that conveys the written report is loaded as the report it was written for, and the
written text is one of them. -/
theorem loaded_compatibly (r : Report) (hr : r.Fits) :
    (∃ d : Document, d.text = r.json ∧ d.value.Conveys r.toJson) ∧
      ∀ d : Document, d.value.Conveys r.toJson → ofJson d.text = .ok r := by
  refine ⟨r.toJson.exists_conveying, fun d hd => ?_⟩
  exact ((Record.means_record isLocal_form).load_eq_ok_iff d r).mpr (of?_of_conveys hr hd)

/-! ### A rearranged document -/

def plain (s : String) (h : ∀ c ∈ s.toList, ¬ c < ' ' ∧ c ≠ '"' ∧ c ≠ '\\') : Literal :=
  ⟨s.toList.pmap Piece.plain h⟩

def digit (c : Char) (h : c.isDigit = true) : Tree :=
  .number ⟨false, ⟨[c], by simp, by simpa using h⟩, by simp, none, none⟩

/-- An identifier on the first line, as the list of its values. -/
def listedToken : Tree :=
  .list .none [⟨.none, .string (plain "IDENTIFIER" (by simp)), .none⟩,
    ⟨.none, .string (plain "a" (by simp)), .none⟩, ⟨.none, digit '1' rfl, .none⟩]

def ownMembers : List Member :=
  [⟨.none, plain "tokens" (by simp), .none, .none,
      .list .none [⟨.none, listedToken, .none⟩], .none⟩,
    ⟨.none, plain "diagnostics" (by simp), .none, .none, .list blankGap [], .none⟩,
    ⟨.none, plain "lines_scanned" (by simp), .none, blankGap, digit '1' rfl, .none⟩,
    ⟨.none, plain "lines_abandoned" (by simp), blankGap, .none, digit '0' rfl, .none⟩]

/-- A member that no report has, with brackets in a string of its value. -/
def extraMember : Member :=
  ⟨.none, plain "next" (by simp), .none, .none,
    .list .none [⟨.none, .object .none
      [⟨.none, plain "]\x7d" (by simp), .none, .none, .null, .none⟩], .none⟩], .none⟩

def rearranged : Document :=
  ⟨.none, .object .none (ownMembers ++ [extraMember]).reverse, .none⟩

def rearrangedText : String :=
  "\x7b\"next\":[\x7b\"]\x7d\":null\x7d],\"lines_abandoned\" :0," ++
    "\"lines_scanned\": 1,\"diagnostics\":[ ],\"tokens\":[[\"IDENTIFIER\",\"a\",1]]\x7d"

theorem loaded_compatibly_rearranged :
    let r : Report := ⟨[⟨.identifier, "a", 1⟩], [], 1, 0⟩
    r.Fits ∧ ofJson rearrangedText = .ok r := by
  intro r
  have hr : r.Fits := ⟨by decide, by decide, by decide, by decide⟩
  have text : rearranged.text = rearrangedText := by decide +kernel
  have token : listedToken.Conveys (Token.toJson ⟨.identifier, "a", 1⟩) :=
    .array (.cons (.string (by decide)) (.cons (.string (by decide)) (.cons (.number rfl) .nil)))
  have own : MembersConvey ownMembers
      [("tokens", .list [Token.toJson ⟨.identifier, "a", 1⟩]), ("diagnostics", .list []),
        ("lines_scanned", .number 1), ("lines_abandoned", .number 0)] :=
    .cons (by decide) (.list (.cons token .nil)) <| .cons (by decide) (.list .nil) <|
      .cons (by decide) (.number rfl) <| .cons (by decide) (.number rfl) .nil
  have extra : extraMember.key.text? = some "next" := by decide
  have conveyed : rearranged.value.Conveys r.toJson := by
    refine .object own ?_ (List.reverse_perm _)
    rw [List.forall_mem_singleton]
    exact ⟨"next", extra, by simp⟩
  rw [← text]
  exact ⟨hr, (loaded_compatibly r hr).2 rearranged conveyed⟩

end Report
end LineLexer
