import LineLexer.Proofs.Lexeme.LetterCase
import LineLexer.Proofs.Scan.FailFast
import LineLexer.Proofs.Scan.Images
import LineLexer.Proofs.Scan.Row

/-!
Scans up to the case of ASCII letters. Reading a text in small letters changes the letters of
lexemes and contexts and nothing else, so that texts which differ in case alone have one outcome up
to case. A letter outside of ASCII has no case: each is a character of its own.
-/

namespace LineLexer

/-! ### Lines -/

def Token.toLower (t : Token) : Token := { t with lexeme := t.lexeme.toLower }

/-- Small letters in the context; the character of a diagnostic is none that has a case. -/
def Diagnostic.toLower (d : Diagnostic) : Diagnostic := { d with context := d.context.toLower }

namespace LineScan

def Halt.toLower (h : Halt) : Halt :=
  ⟨h.cause, h.character.toLower, h.rest.map Char.toLower⟩

def Ending.toLower : Ending → Ending
  | complete => complete
  | dropped => dropped
  | diagnosed d => diagnosed d.toLower

def toLower (s : LineScan) : LineScan :=
  ⟨s.number, s.tokens.map Token.toLower, s.ending.toLower⟩

theorem actsBy_toLower : ActsBy toLower Token.toLower Diagnostic.toLower where
  tokens_eq _ := rfl
  diagnostic?_eq s := by
    simp only [diagnostic?, toLower]
    cases s.ending <;> rfl
  isAbandoned_eq s := by
    simp only [toLower]
    cases s.ending <;> rfl

theorem Munched.toLower {v : Vocabulary} {number : Nat} {text : List Char} {tokens : List Token}
    {halt : Option Halt} (h : Munched v number text tokens halt) :
    Munched v number (text.map Char.toLower) (tokens.map Token.toLower)
      (halt.map Halt.toLower) := by
  induction h with
  | complete => exact .complete
  | @blank c _ _ _ hb _ ih => exact .blank ((Text.isBlank_toLower c).trans hb) ih
  | lexeme hl hk _ ih =>
      obtain ⟨hl', hk'⟩ := hl.toLower hk
      rw [List.map_append, List.map_cons, Token.toLower, Text.toLower_ofList]
      exact .lexeme hl' hk' ih
  | stop hd => exact .stop hd.toLower

theorem Halt.context_toLower (h : Halt) (width : Nat) :
    h.toLower.context width = (h.context width).toLower := by
  rw [context, context, Text.toLower_ofList, List.map_take]
  rfl

theorem Munched.ofHalt_toLower {v : Vocabulary} {number : Nat} {text : List Char}
    {tokens : List Token} {halt : Option Halt} (h : Munched v number text tokens halt)
    (o : Options) :
    Ending.ofHalt o number (halt.map Halt.toLower) = (Ending.ofHalt o number halt).toLower := by
  cases halt with
  | none => rfl
  | some halt =>
      have hc : halt.toLower.character = halt.character :=
        Text.toLower_of_isAlpha_eq_false h.decided.isAlpha_eq_false
      have hk : halt.toLower.cause = halt.cause := rfl
      simp only [Option.map_some, Ending.ofHalt, Halt.context_toLower, hc, hk]
      cases halt.cause with
      | unrecognizedCharacter => rfl
      | unterminatedString => cases o.openStrings <;> rfl

theorem ofLine_toLower (o : Options) (number : Nat) (text : List Char) :
    ofLine o number (text.map Char.toLower) = (ofLine o number text).toLower := by
  have h : Munched o.vocabulary number text _ _ := munched_walk o.vocabulary (.start number text)
  rw [h.toLower.ofLine_eq, h.ofHalt_toLower, ofLine_eq]
  rfl

theorem ofLines_toLower (o : Options) (number : Nat) (texts : List (List Char)) :
    ofLines o number (texts.map (·.map Char.toLower)) = (ofLines o number texts).map toLower := by
  induction texts generalizing number with
  | nil => rfl
  | cons text texts ih => rw [List.map_cons, ofLines, ofLine_toLower, ih, ofLines, List.map_cons]

theorem ofSource_toLower (o : Options) (source : String) :
    ofSource o source.toLower = (ofSource o source).map toLower := by
  rw [ofSource, String.toLower, String.toList_map, Text.lines_toLower, ofLines_toLower, ofSource]

end LineScan

/-! ### Outcomes -/

def Report.toLower (r : Report) : Report :=
  { r with
    tokens := r.tokens.map Token.toLower
    diagnostics := r.diagnostics.map Diagnostic.toLower }

theorem Report.ofScans_toLower (scans : List LineScan) :
    ofScans (scans.map LineScan.toLower) = (ofScans scans).toLower :=
  LineScan.actsBy_toLower.ofScans_map scans

theorem stopper?_toLower (o : Options) (scans : List LineScan) :
    stopper? o (scans.map LineScan.toLower) = (stopper? o scans).map Diagnostic.toLower :=
  LineScan.actsBy_toLower.stopper?_map rfl scans

structure Token.Recased (t t' : Token) : Prop where
  kind_eq : t.kind = t'.kind
  line_eq : t.line = t'.line
  lexeme : Text.Recased t.lexeme t'.lexeme

structure Diagnostic.Recased (d d' : Diagnostic) : Prop where
  cause_eq : d.cause = d'.cause
  line_eq : d.line = d'.line
  character_eq : d.character = d'.character
  context : Text.Recased d.context d'.context

structure Report.Recased (r r' : Report) : Prop where
  tokens : List.Forall₂ Token.Recased r.tokens r'.tokens
  diagnostics : List.Forall₂ Diagnostic.Recased r.diagnostics r'.diagnostics
  linesScanned_eq : r.linesScanned = r'.linesScanned
  linesAbandoned_eq : r.linesAbandoned = r'.linesAbandoned

/-- Outcomes of scans that agree in everything but the case of ASCII letters. -/
inductive Recased : Except Failure Report → Except Failure Report → Prop
  | ok {r r' : Report} (h : r.Recased r') : Recased (.ok r) (.ok r')
  | error {d d' : Diagnostic} (h : d.Recased d') :
      Recased (.error (.scan d)) (.error (.scan d'))

theorem Token.recased_of_toLower {t t' : Token} (h : t.toLower = t'.toLower) : t.Recased t' := by
  simp only [toLower, mk.injEq] at h
  exact ⟨h.1, h.2.2, Text.recased_iff.mpr h.2.1⟩

theorem Diagnostic.recased_of_toLower {d d' : Diagnostic} (h : d.toLower = d'.toLower) :
    d.Recased d' := by
  simp only [toLower, mk.injEq] at h
  exact ⟨h.1, h.2.1, h.2.2.1, Text.recased_iff.mpr h.2.2.2⟩

/-- Lists with one image are related itemwise by whatever holds of items with one image. -/
theorem forall₂_of_map_eq {α β : Type} {f : α → β} {R : α → α → Prop}
    (hR : ∀ {a b}, f a = f b → R a b) {as bs : List α} (h : as.map f = bs.map f) :
    List.Forall₂ R as bs := by
  rw [← List.forall₂_eq_eq_eq, List.forall₂_map_left_iff, List.forall₂_map_right_iff] at h
  exact h.imp fun _ _ => hR

theorem Report.recased_of_toLower {r r' : Report} (h : r.toLower = r'.toLower) : r.Recased r' := by
  simp only [toLower, mk.injEq] at h
  obtain ⟨ht, hd, hs, ha⟩ := h
  exact ⟨forall₂_of_map_eq Token.recased_of_toLower ht,
    forall₂_of_map_eq Diagnostic.recased_of_toLower hd, hs, ha⟩

theorem conclude_recased {o : Options} {scans scans' : List LineScan}
    (h : scans.map LineScan.toLower = scans'.map LineScan.toLower) :
    Recased (conclude o scans) (conclude o scans') := by
  have stops : (stopper? o scans).map Diagnostic.toLower =
      (stopper? o scans').map Diagnostic.toLower := by
    rw [← stopper?_toLower, h, stopper?_toLower]
  have reports : (Report.ofScans scans).toLower = (Report.ofScans scans').toLower := by
    rw [← Report.ofScans_toLower, h, Report.ofScans_toLower]
  rw [conclude, conclude]
  cases hd : stopper? o scans with
  | none =>
      rw [hd] at stops
      rw [Option.map_eq_none_iff.mp stops.symm]
      exact .ok (Report.recased_of_toLower reports)
  | some d =>
      rw [hd] at stops
      obtain ⟨d', hd', hdd⟩ := Option.map_eq_some_iff.mp stops.symm
      rw [hd']
      exact .error (Diagnostic.recased_of_toLower hdd.symm)

theorem scan_recased_of_toLower (o : Options) {s t : String} (h : s.toLower = t.toLower) :
    Recased (scan o s) (scan o t) := by
  rw [scan_eq, scan_eq]
  apply conclude_recased
  rw [← LineScan.ofSource_toLower, h, LineScan.ofSource_toLower]

/-! ### Characters outside of ASCII -/

/-- The diagnostic that an outcome leads with. -/
def leading? : Except Failure Report → Option Diagnostic
  | .ok r => r.diagnostics.head?
  | .error (.scan d) => some d
  | .error _ => none

theorem leading?_scan (o : Options) (source : String) :
    leading? (scan o source) =
      ((LineScan.ofSource o source).filterMap (·.diagnostic?)).head? := by
  rw [scan_eq, conclude]
  cases ho : o.recovery with
  | skipLine =>
      rw [stopper?_skipLine ho]
      rfl
  | failFast =>
      rw [stopper?_failFast ho]
      cases hd : (LineScan.ofSource o source).filterMap (·.diagnostic?) with
      | nil => simp [leading?, Report.ofScans, hd]
      | cons d ds => rfl

theorem Recased.character_eq {a b : Except Failure Report} (h : Recased a b) :
    (leading? a).map (·.character) = (leading? b).map (·.character) := by
  cases h with
  | @ok r r' h =>
      have hd := h.diagnostics
      simp only [leading?]
      generalize r.diagnostics = ds, r'.diagnostics = ds' at hd
      cases hd with
      | nil => rfl
      | cons h _ => exact congrArg some h.character_eq
  | error h => exact congrArg some h.character_eq

/-- A character outside of ASCII is reported as it is, whatever comes behind. -/
theorem character_leading?_scan (o : Options) {c : Char} (h : Text.IsForeign c) (rest : List Char) :
    (leading? (scan o (String.ofList (c :: rest)))).map (·.character) = some c := by
  have hf : Text.firstLine (c :: rest) = c :: Text.firstLine rest := by
    rw [Text.firstLine, List.takeWhile_cons_of_pos (by simp [h.isBreak_eq_false]), Text.firstLine]
  have hd : Lexeme.Decided o.vocabulary (c :: Text.firstLine rest) (.stop .unrecognizedCharacter) :=
    .unrecognized h.isBlank_eq_false (h.ne_of_ascii (by decide)) h.not_isLexeme
  rw [leading?_scan, LineScan.ofSource, String.toList_ofList, Text.lines_cons, hf,
    LineScan.ofLines, (LineScan.Munched.stop hd).ofLine_eq]
  rfl

/-- A quoted text is one token, whatever is between the quotes. -/
theorem scan_quoted (o : Options) {body : List Char}
    (h : ∀ c ∈ body, c ≠ '"' ∧ Text.isBreak c = false) :
    scan o (String.ofList ('"' :: (body ++ ['"']))) =
      .ok ⟨[⟨.string, String.ofList ('"' :: (body ++ ['"'])), 1⟩], [], 1, 0⟩ := by
  have hq : '"' ∉ body := fun hq => (h _ hq).1 rfl
  have line : ∀ c ∈ '"' :: (body ++ ['"']), Text.isBreak c = false := by
    rw [List.forall_mem_cons, List.forall_mem_append, List.forall_mem_singleton]
    exact ⟨by decide, fun c hc => (h c hc).2, by decide⟩
  have hl : Lexeme.IsLongest ('"' :: (body ++ ['"']) ++ []) ('"' :: (body ++ ['"'])) := by
    rw [List.append_nil]
    exact Lexeme.isLongest_string [] hq
  have hm : LineScan.Munched o.vocabulary 1 _ _ _ := .lexeme hl (.string ⟨body, hq, rfl⟩) .complete
  rw [List.append_nil] at hm
  have hs := ofSource_ofList o line
  rw [if_neg (List.cons_ne_nil _ _), hm.ofLine_eq] at hs
  have complete : ∀ s ∈ LineScan.ofSource o (String.ofList ('"' :: (body ++ ['"']))),
      s.ending = .complete := by
    rw [hs, List.forall_mem_singleton]
    rfl
  rw [scan_of_complete complete, hs]
  rfl

theorem not_recased_quoted (o : Options) {c d : Char} (hc : Text.IsForeign c)
    (hd : Text.IsForeign d) (hne : c ≠ d) {before behind : List Char}
    (h : ∀ e ∈ before ++ behind, e ≠ '"' ∧ Text.isBreak e = false) :
    ¬ Recased (scan o (String.ofList ('"' :: (before ++ c :: behind ++ ['"']))))
      (scan o (String.ofList ('"' :: (before ++ d :: behind ++ ['"'])))) := by
  rw [List.forall_mem_append] at h
  have body {e : Char} (he : Text.IsForeign e) :
      ∀ x ∈ before ++ e :: behind, x ≠ '"' ∧ Text.isBreak x = false := by
    rw [List.forall_mem_append, List.forall_mem_cons]
    exact ⟨h.1, ⟨he.ne_of_ascii (by decide), he.isBreak_eq_false⟩, h.2⟩
  rw [scan_quoted o (body hc), scan_quoted o (body hd)]
  intro hr
  cases hr with
  | ok hr =>
      cases hr.tokens with
      | cons ht _ =>
          have hl := Text.recased_iff.mp ht.lexeme
          rw [Text.toLower_ofList, Text.toLower_ofList, String.ofList_inj] at hl
          simp only [List.map_cons, List.map_append, List.cons.injEq, true_and,
            List.append_cancel_right_eq, List.append_cancel_left_eq, and_true] at hl
          exact hc.not_sameLetter hne (Text.sameLetter_iff.mpr hl)

/-- Texts that agree up to the case of ASCII letters have outcomes that do. Two characters outside of
ASCII are never taken for one, be it where a text begins, between quotes or in a word. -/
theorem scan_recased (o : Options) :
    (∀ s t : String, Text.Recased s t → Recased (scan o s) (scan o t)) ∧
    (∀ c d : Char, Text.IsForeign c → Text.IsForeign d → c ≠ d →
      (∀ rest rest' : List Char,
        ¬ Recased (scan o (String.ofList (c :: rest))) (scan o (String.ofList (d :: rest')))) ∧
      ∀ before behind : List Char,
        (∀ e ∈ before ++ behind, e ≠ '"' ∧ Text.isBreak e = false) →
        ¬ Recased (scan o (String.ofList ('"' :: (before ++ c :: behind ++ ['"']))))
          (scan o (String.ofList ('"' :: (before ++ d :: behind ++ ['"']))))) ∧
    ∀ word : String, (∃ c ∈ word.toList, Text.IsForeign c) →
      o.vocabulary.classify word = .identifier := by
  refine ⟨fun s t h => scan_recased_of_toLower o (Text.recased_iff.mp h), ?_, ?_⟩
  · intro c d hc hd hne
    constructor
    · intro rest rest' h
      have hcd := h.character_eq
      rw [character_leading?_scan o hc, character_leading?_scan o hd] at hcd
      exact hne (Option.some.inj hcd)
    · exact fun before behind h => not_recased_quoted o hc hd hne h
  · rintro word ⟨c, hc, h⟩
    exact o.vocabulary.classify_of_isForeign hc h

theorem scan_recased_mixed :
    Recased (scan {} "Class aB \"Né") (scan {} "cLASS Ab \"né") ∧
      ¬ Recased (scan {} (String.ofList ['é', 'a'])) (scan {} (String.ofList ['É', 'a'])) ∧
      ¬ Recased (scan {} (String.ofList ['"', 'é', '"']))
        (scan {} (String.ofList ['"', 'É', '"'])) ∧
      Vocabulary.extended.classify (String.ofList ['e', 'l', '\u017f', 'e']) = .identifier := by
  obtain ⟨same, apart, words⟩ := scan_recased {}
  have foreign : Text.IsForeign 'é' ∧ Text.IsForeign 'É' ∧ Text.IsForeign '\u017f' :=
    ⟨⟨by decide, by decide⟩, ⟨by decide, by decide⟩, ⟨by decide, by decide⟩⟩
  obtain ⟨heads, quoted⟩ := apart 'é' 'É' foreign.1 foreign.2.1 (by decide)
  refine ⟨same _ _ (by decide +kernel), heads ['a'] ['a'], quoted [] [] (by simp),
    words _ ⟨'\u017f', ?_, foreign.2.2⟩⟩
  rw [String.toList_ofList]
  decide

end LineLexer
