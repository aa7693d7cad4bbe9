import LineLexer.Proofs.LineScan.Determinism

/-!
The number of a line is a label. The scan of a line under a larger number is the same scan, with the
larger number in its tokens and its diagnostic and nothing else changed.
-/

namespace LineLexer

def Token.shift (t : Token) (k : Nat) : Token := { t with line := t.line + k }

def Diagnostic.shift (d : Diagnostic) (k : Nat) : Diagnostic := { d with line := d.line + k }

namespace LineScan

def Ending.shift : Ending → Nat → Ending
  | complete, _ => complete
  | dropped, _ => dropped
  | diagnosed d, k => diagnosed (d.shift k)

def shift (s : LineScan) (k : Nat) : LineScan :=
  ⟨s.number + k, s.tokens.map (·.shift k), s.ending.shift k⟩

@[simp] theorem tokens_shift (s : LineScan) (k : Nat) :
    (s.shift k).tokens = s.tokens.map (·.shift k) := rfl

@[simp] theorem diagnostic?_shift (s : LineScan) (k : Nat) :
    (s.shift k).diagnostic? = s.diagnostic?.map (·.shift k) := by
  simp only [diagnostic?, shift]
  cases s.ending <;> rfl

@[simp] theorem isAbandoned_shift (s : LineScan) (k : Nat) :
    (s.shift k).ending.isAbandoned = s.ending.isAbandoned := by
  simp only [shift]
  cases s.ending <;> rfl

theorem Ending.ofHalt_add (o : Options) (number k : Nat) (halt : Option Halt) :
    ofHalt o (number + k) halt = (ofHalt o number halt).shift k := by
  cases halt with
  | none => rfl
  | some h =>
      simp only [ofHalt]
      split <;> rfl

theorem Munched.shift {v : Vocabulary} {number : Nat} {text : List Char} {tokens : List Token}
    {halt : Option Halt} (h : Munched v number text tokens halt) (k : Nat) :
    Munched v (number + k) text (tokens.map (·.shift k)) halt := by
  induction h with
  | complete => exact .complete
  | blank hb _ ih => exact .blank hb ih
  | lexeme hl hk _ ih => exact .lexeme hl hk ih
  | stop hd => exact .stop hd

/-- Lines are scanned alike wherever they stand. -/
theorem ofLine_add (o : Options) (number k : Nat) (text : List Char) :
    ofLine o (number + k) text = (ofLine o number text).shift k := by
  have h : Munched o.vocabulary number text _ _ := munched_walk o.vocabulary (.start number text)
  rw [(h.shift k).ofLine_eq, Ending.ofHalt_add, ofLine_eq]
  rfl

end LineScan
end LineLexer
