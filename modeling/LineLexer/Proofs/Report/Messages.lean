import LineLexer.Command.Run
import LineLexer.Proofs.Scan.Unbroken
import LineLexer.Proofs.Text.Delimited

/-!
Printed diagnostics can be told apart. A message quotes a character and a context as they are, with
whatever quotes and periods they hold; still its form is seen at once, its number ends with the
first character that is no digit, and all that is left in front of the fixed end is the context.
-/

namespace LineLexer

/-- The two forms in which diagnostics are made, about texts without a line feed. -/
inductive Diagnostic.OfOneLine : Diagnostic → Prop
  | unrecognized (line : Nat) {character : Char} {context : String} (hc : character ≠ '\n')
      (hx : '\n' ∉ context.toList) : OfOneLine (.unrecognized line character context)
  | unterminated (line : Nat) {context : String} (hx : '\n' ∉ context.toList) :
      OfOneLine (.unterminated line context)

namespace Diagnostic

theorem toList_message_unrecognized (line : Nat) (character : Char) (context : String) :
    (unrecognized line character context).message.toList =
      "Unrecognized token on line ".toList ++ ((toString line).toList ++ ',' ::
        (" character '".toList ++ (character ::
          ("'. Context: '".toList ++ (context.toList ++ "'.".toList))))) := by
  change ("Unrecognized token on line " ++ toString line ++ ", character '" ++
    String.singleton character ++ "'. Context: '" ++ context ++ "'.").toList = _
  simp

theorem toList_message_unterminated (line : Nat) (context : String) :
    (unterminated line context).message.toList =
      "Unterminated string on line ".toList ++ ((toString line).toList ++ '.' ::
        (" Context: '".toList ++ (context.toList ++ "'.".toList))) := by
  change ("Unterminated string on line " ++ toString line ++ ". Context: '" ++ context ++
    "'.").toList = _
  simp

/-- The two forms differ in their third letter. -/
theorem message_unrecognized_ne (m n : Nat) (character : Char) (context context' : String) :
    (unrecognized m character context).message ≠ (unterminated n context').message := by
  intro h
  rw [← String.toList_inj, toList_message_unrecognized, toList_message_unterminated] at h
  simp at h

namespace OfOneLine

theorem lineFeed_notMem_message {d : Diagnostic} (h : d.OfOneLine) : '\n' ∉ d.message.toList := by
  cases h with
  | unrecognized line hc hx =>
      rw [toList_message_unrecognized]
      simp only [List.mem_append, List.mem_cons, not_or]
      exact ⟨by decide, Text.notMem_toString line rfl, by decide, by decide, hc.symm, by decide, hx,
        by decide⟩
  | unterminated line hx =>
      rw [toList_message_unterminated]
      simp only [List.mem_append, List.mem_cons, not_or]
      exact ⟨by decide, Text.notMem_toString line rfl, by decide, by decide, hx, by decide⟩

theorem eq_of_message_eq {d e : Diagnostic} (hd : d.OfOneLine) (he : e.OfOneLine)
    (h : d.message = e.message) : d = e := by
  cases hd with
  | unrecognized m _ _ =>
      cases he with
      | unrecognized n _ _ =>
          rw [← String.toList_inj, toList_message_unrecognized, toList_message_unrecognized] at h
          obtain ⟨rfl, tail⟩ := Text.toString_append_cons_inj rfl (List.append_cancel_left h)
          obtain ⟨rfl, rest⟩ := List.cons.inj (List.append_cancel_left tail)
          have context := List.append_cancel_right (List.append_cancel_left rest)
          rw [String.toList_inj.mp context]
      | unterminated n _ => exact absurd h (message_unrecognized_ne m n _ _ _)
  | unterminated m _ =>
      cases he with
      | unrecognized n _ _ => exact absurd h.symm (message_unrecognized_ne n m _ _ _)
      | unterminated n _ =>
          rw [← String.toList_inj, toList_message_unterminated, toList_message_unterminated] at h
          obtain ⟨rfl, rest⟩ := Text.toString_append_cons_inj rfl (List.append_cancel_left h)
          have context := List.append_cancel_right (List.append_cancel_left rest)
          rw [String.toList_inj.mp context]

end OfOneLine

theorem eq_of_onLines_eq {ds es : List Diagnostic} (hd : ∀ d ∈ ds, d.OfOneLine)
    (he : ∀ e ∈ es, e.OfOneLine)
    (h : Command.onLines (ds.map message) = Command.onLines (es.map message)) : ds = es := by
  rw [Command.onLines, Command.onLines, List.map_map, List.map_map] at h
  have told : ds.map id = es.map id :=
    Text.map_eq_of_join_lineFeed OfOneLine.lineFeed_notMem_message OfOneLine.eq_of_message_eq
      hd he h
  rwa [List.map_id, List.map_id] at told

end Diagnostic

theorem ofOneLine_of_scan {o : Options} {source : String} {r : Report} (h : scan o source = .ok r) :
    ∀ d ∈ r.diagnostics, d.OfOneLine := by
  intro d hd
  have unbroken : '\n' ∉ d.character :: d.context.toList := by
    intro hmem
    cases isBreak_of_mem_context h hd hmem
  obtain ⟨hc, hx⟩ := not_or.mp (List.mem_cons.not.mp unbroken)
  obtain ⟨k, text, _, _, hfound⟩ := exists_line_of_mem_diagnostics h hd
  have cause_eq := (LineScan.isExact_of_diagnostic? hfound).cause_eq
  obtain ⟨cause, line, character, context⟩ := d
  by_cases hq : character = '"'
  · obtain rfl : cause = .unterminatedString := cause_eq.trans (if_pos hq)
    subst hq
    exact .unterminated line hx
  · obtain rfl : cause = .unrecognizedCharacter := cause_eq.trans (if_neg hq)
    exact .unrecognized line (Ne.symm hc) hx

/-- What reports print about their lines tells their diagnostics apart; so does what is printed of
any diagnostics about text without line feeds. -/
theorem diagnostics_eq_of_printed :
    (∀ (o o' : Options) (source source' : String) (r r' : Report), scan o source = .ok r →
      scan o' source' = .ok r' → Command.onLines r.messages = Command.onLines r'.messages →
      r.diagnostics = r'.diagnostics) ∧
    ∀ ds es : List Diagnostic, (∀ d ∈ ds, d.OfOneLine) → (∀ e ∈ es, e.OfOneLine) →
      Command.onLines (ds.map Diagnostic.message) = Command.onLines (es.map Diagnostic.message) →
      ds = es := by
  constructor
  · intro o o' source source' r r' h h' hprinted
    exact Diagnostic.eq_of_onLines_eq (ofOneLine_of_scan h) (ofOneLine_of_scan h') hprinted
  · intro ds es hd he hprinted
    exact Diagnostic.eq_of_onLines_eq hd he hprinted

/-- Messages may quote what looks like their own parts. -/
theorem diagnostics_eq_of_printed_quoted :
    ∃ r r', scan {} "a .'. Context\n\"x'." = .ok r ∧
      scan { contextWidth := 40 } "b + .'. Context\r\n** \"x'." = .ok r' ∧
      Command.onLines r.messages = Command.onLines r'.messages ∧
      r.diagnostics = r'.diagnostics ∧
      [Diagnostic.unrecognized 1 '.' ".'. Contex", .unterminated 2 "\"x'."] = r.diagnostics := by
  have h : scan {} "a .'. Context\n\"x'." = .ok ⟨[⟨.identifier, "a", 1⟩],
      [.unrecognized 1 '.' ".'. Contex", .unterminated 2 "\"x'."], 2, 2⟩ := by
    decide +kernel
  have h' : scan { contextWidth := 40 } "b + .'. Context\r\n** \"x'." = .ok
      ⟨[⟨.identifier, "b", 1⟩, ⟨.plus, "+", 1⟩, ⟨.power, "**", 2⟩],
        [.unrecognized 1 '.' ".'. Contex", .unterminated 2 "\"x'."], 2, 2⟩ := by
    decide +kernel
  have made : ∀ d ∈ [Diagnostic.unrecognized 1 '.' ".'. Contex", .unterminated 2 "\"x'."],
      d.OfOneLine := by
    simp only [List.forall_mem_cons]
    exact ⟨.unrecognized 1 (by decide) (by decide), .unterminated 2 (by decide), by simp⟩
  exact ⟨_, _, h, h', rfl, diagnostics_eq_of_printed.1 _ _ _ _ _ _ h h' rfl,
    diagnostics_eq_of_printed.2 _ _ made made rfl⟩

end LineLexer
