import LineLexer.Proofs.LineScan.Determinism
import LineLexer.Proofs.Scan.Images

/-!
Scans under different vocabularies. A vocabulary decides about the kinds of words and about nothing
else: a scan under the initial one finds what a scan under the extended one does, with identifiers
for the words that only the latter reserves.
-/

namespace LineLexer

namespace Token

/-- The kinds of the words that only the extended vocabulary reserves. -/
def Kind.added : List Kind := [.keyword .var_, .keyword .while_, .keyword .true_]

/-- The kind under the initial vocabulary of what has a kind under the extended one. -/
def Kind.demoted (k : Kind) : Kind := if k ∈ added then .identifier else k

def demoted (t : Token) : Token := { t with kind := t.kind.demoted }

/-- A token under the initial vocabulary against the one in its place under the extended one. -/
structure IsDemotion (t t' : Token) : Prop where
  lexeme_eq : t.lexeme = t'.lexeme
  line_eq : t.line = t'.line
  kind_eq : t'.kind ∉ Kind.added → t.kind = t'.kind
  kind_eq_identifier : t'.kind ∈ Kind.added → t.kind = .identifier

theorem isDemotion_demoted (t : Token) : IsDemotion t.demoted t where
  lexeme_eq := rfl
  line_eq := rfl
  kind_eq h := if_neg h
  kind_eq_identifier h := if_pos h

end Token

namespace Lexeme

theorem HasKind.demoted {l : List Char} {k : Token.Kind} (h : HasKind .extended l k) :
    HasKind .initial l k.demoted := by
  cases h with
  | fixed h =>
      have kept : ∀ p ∈ spellings, p.2.demoted = p.2 := by decide
      rw [kept _ h]
      exact .fixed h
  | number h => exact .number h
  | string h => exact .string h
  | @keyword k h hk hs =>
      -- The kinds are compared through the words, since two words never share a spelling.
      have split : k ∈ Vocabulary.reserved .initial ∧ Token.Kind.keyword k ∉ Token.Kind.added ∨
          k ∉ Vocabulary.reserved .initial ∧ Token.Kind.keyword k ∈ Token.Kind.added := by
        cases k <;> decide
      rcases split with ⟨hi, hn⟩ | ⟨hi, ha⟩
      · rw [Token.Kind.demoted, if_neg hn]
        exact .keyword h hi hs
      · rw [Token.Kind.demoted, if_pos ha]
        apply HasKind.identifier h
        intro j hj he
        have hjk : j = k := Keyword.spelling_injective (String.toList_inj.mp (he.trans hs.symm))
        exact hi (hjk ▸ hj)
  | identifier h hs =>
      apply HasKind.identifier h
      intro k hk
      exact hs k (List.mem_append_left _ hk)

end Lexeme

namespace LineScan

theorem Munched.demoted {number : Nat} {text : List Char} {tokens : List Token}
    {halt : Option Halt} (h : Munched .extended number text tokens halt) :
    Munched .initial number text (tokens.map Token.demoted) halt := by
  induction h with
  | complete => exact .complete
  | blank hb _ ih => exact .blank hb ih
  | lexeme hl hk _ ih => exact .lexeme hl hk.demoted ih
  | stop hd =>
      cases hd with
      | unrecognized hb hq h => exact .stop (.unrecognized hb hq h)
      | unterminated h => exact .stop (.unterminated h)

def demoted (s : LineScan) : LineScan := { s with tokens := s.tokens.map Token.demoted }

theorem actsBy_demoted : ActsBy demoted Token.demoted id where
  tokens_eq _ := rfl
  diagnostic?_eq s := (congrFun Option.map_id s.diagnostic?).symm
  isAbandoned_eq _ := rfl

theorem ofLine_initial (o : Options) (number : Nat) (text : List Char) :
    ofLine { o with vocabulary := .initial } number text =
      (ofLine { o with vocabulary := .extended } number text).demoted := by
  have h : Munched .extended number text _ _ := munched_walk .extended (.start number text)
  rw [h.demoted.ofLine_eq (o := { o with vocabulary := .initial }), ofLine_eq]
  rfl

end LineScan

def Report.demoted (r : Report) : Report := { r with tokens := r.tokens.map Token.demoted }

theorem Report.ofScans_demoted (scans : List LineScan) :
    ofScans (scans.map LineScan.demoted) = (ofScans scans).demoted := by
  rw [LineScan.actsBy_demoted.ofScans_map, map, List.map_id]
  rfl

theorem stopper?_demoted (o : Options) (v : Vocabulary) (scans : List LineScan) :
    stopper? { o with vocabulary := v } (scans.map LineScan.demoted) = stopper? o scans := by
  have same : Options.recovery { o with vocabulary := v } = o.recovery := rfl
  rw [LineScan.actsBy_demoted.stopper?_map same, Option.map_id, id]

theorem conclude_demoted (o : Options) (v : Vocabulary) (scans : List LineScan) :
    conclude { o with vocabulary := v } (scans.map LineScan.demoted) =
      (conclude o scans).map Report.demoted := by
  rw [conclude, conclude, stopper?_demoted, Report.ofScans_demoted]
  cases stopper? o scans <;> rfl

theorem scan_initial (o : Options) (source : String) :
    scan { o with vocabulary := .initial } source =
      (scan { o with vocabulary := .extended } source).map Report.demoted := by
  have hs : LineScan.ofSource { o with vocabulary := .initial } source = _ :=
    ofLines_eq_map (LineScan.ofLine_initial o) 1 _
  rw [scan_eq, scan_eq, hs]
  exact conclude_demoted { o with vocabulary := .extended } .initial _

/-- Scans under the two vocabularies fail alike; if they succeed, their reports differ in the kinds
of the added words alone. -/
theorem scan_vocabularies (o : Options) (source : String) :
    (∃ r r', scan { o with vocabulary := .initial } source = .ok r ∧
      scan { o with vocabulary := .extended } source = .ok r' ∧
      List.Forall₂ Token.IsDemotion r.tokens r'.tokens ∧ r.diagnostics = r'.diagnostics ∧
      r.linesScanned = r'.linesScanned ∧ r.linesAbandoned = r'.linesAbandoned) ∨
    ∃ e, scan { o with vocabulary := .initial } source = .error e ∧
      scan { o with vocabulary := .extended } source = .error e := by
  have h := scan_initial o source
  cases he : scan { o with vocabulary := .extended } source with
  | error e =>
      rw [he] at h
      exact .inr ⟨e, h, rfl⟩
  | ok r =>
      rw [he] at h
      refine .inl ⟨r.demoted, r, h, rfl, ?_, rfl, rfl, rfl⟩
      rw [Report.demoted, List.forall₂_map_left_iff, List.forall₂_same]
      intro t _
      exact t.isDemotion_demoted

end LineLexer
