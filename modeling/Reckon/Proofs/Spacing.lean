/-
  Texts with a blank between.

  A blank ends whatever token stands before it, and what is read after it does not depend on
  what stands before.  So a text can be cut at any blank and the parts scanned one by one.

  * `Token.moved`, `Error.moved`: a token and an error so many characters further on;
  * `scanFrom_add`: the scanner reads the same wherever a text begins;
  * `scanFrom_append_blank`: a text with a blank inside is scanned part by part;
  * `scan_joined`: the texts of tokens with blanks between have the same tokens again;
  * `scan_blank_between`: all of it together.
-/
import Reckon.Proofs.Printing

namespace Reckon

open Text

/-! ## Further on -/

/-- A token so many characters further on. -/
def Token.moved (n : Int) (t : Token) : Token := { t with spot := t.spot + n }

/-- An error so many characters further on, if it has a position. -/
def Error.moved (n : Int) : Error → Error
  | unexpectedCharacter char p => unexpectedCharacter char (p + n)
  | malformedNumber lexeme p => malformedNumber lexeme (p + n)
  | unexpectedToken token p => unexpectedToken token (p + n)
  | unmatchedParen p => unmatchedParen (p + n)
  | unexpectedEnd p => unexpectedEnd (p + n)
  | divisionByZero op p => divisionByZero op (p.map (· + n))
  | undefinedVariable name => undefinedVariable name
  | undefinedFunction name => undefinedFunction name
  | argCount name expected actual => argCount name expected actual
  | domainError name reason => domainError name reason
  | typeMismatch expected actual => typeMismatch expected actual

variable {p : Nat} {w : Char} {cs ds : List Char} {ts : List Token}

/-- A token, or what is wrong with it, is read the same so many characters further on. -/
theorem read_add (p n : Nat) (c : Char) (cs : List Char) : Token.read (p + n) c cs =
    ((Token.read p c cs).mapError (Error.moved n)).map (Token.moved n) := by
  unfold Token.read
  split
  · split <;> rfl
  split
  · rfl
  split <;> rfl

/-- **The scanner does not look at positions**: so many characters further on, it reads the same
    tokens or finds the same fault. -/
theorem scanFrom_add (p n : Nat) : ∀ cs : List Char, Token.scanFrom (p + n) cs =
    ((Token.scanFrom p cs).mapError (Error.moved n)).map (List.map (Token.moved n))
  | [] => by
    rw [Token.scanFrom, Token.scanFrom]
    rfl
  | c :: cs => by
    cases hc : isBlank c with
    | true =>
      rw [scanFrom_blank hc, scanFrom_blank hc, Nat.add_right_comm, scanFrom_add (p + 1) n cs]
    | false =>
      have hlen := (List.dropWhile_suffix (continuesToken c) (l := cs)).length_le
      have ih := scanFrom_add (p + 1 + (cs.takeWhile (continuesToken c)).length) n
        (cs.dropWhile (continuesToken c))
      rw [Nat.add_right_comm, Nat.add_right_comm p 1 n] at ih
      rw [scanFrom_token hc, scanFrom_token hc, read_add, ih]
      rcases Token.read p c (cs.takeWhile (continuesToken c)) with e | t
      · rfl
      · rcases Token.scanFrom (p + 1 + (cs.takeWhile (continuesToken c)).length)
          (cs.dropWhile (continuesToken c)) with e | ts <;> rfl
termination_by cs => cs.length
decreasing_by all_goals simp only [List.length_cons]; omega

/-! ## Part by part -/

/-- **A text with a blank inside** is scanned up to the blank and, unless that fails, from there. -/
theorem scanFrom_append_blank (hw : isBlank w = true) (p : Nat) : ∀ cs : List Char,
    Token.scanFrom p (cs ++ w :: ds) = (Token.scanFrom p cs).bind fun ts =>
      (Token.scanFrom (p + cs.length + 1) ds).map fun us => ts ++ us
  | [] => by
    rw [List.nil_append, scanFrom_blank hw, Token.scanFrom]
    show Token.scanFrom (p + 1) ds = (Token.scanFrom (p + 1) ds).map fun us => us
    cases Token.scanFrom (p + 1) ds <;> rfl
  | c :: cs => by
    rw [List.cons_append]
    cases hc : isBlank c with
    | true =>
      rw [scanFrom_blank hc, scanFrom_blank hc, scanFrom_append_blank hw (p + 1) cs,
        List.length_cons, ← Nat.add_assoc, Nat.add_right_comm p 1]
    | false =>
      -- the token that begins with `c` ends before the blank, if it has not ended already
      have hsplit := List.takeWhile_append_dropWhile (p := continuesToken c) (l := cs)
      have hhead : ∀ d ∈ (cs.dropWhile (continuesToken c) ++ w :: ds).head?,
          continuesToken c d = false := by
        intro d hd
        rw [List.head?_append, Option.mem_def, Option.or_eq_some_iff] at hd
        rcases hd with hd | ⟨-, ⟨⟩⟩
        · exact head?_dropWhile d hd
        · exact parts_of_blank hw c
      obtain ⟨htw, hdw⟩ := takeWhile_dropWhile_append
        (List.all_eq_true.1 (List.all_takeWhile (p := continuesToken c) (l := cs))) hhead
      rw [← List.append_assoc, hsplit] at htw hdw
      have hlen : (cs.takeWhile (continuesToken c)).length +
          (cs.dropWhile (continuesToken c)).length = cs.length := by
        rw [← List.length_append, hsplit]
      have ih := scanFrom_append_blank hw (p + 1 + (cs.takeWhile (continuesToken c)).length)
        (cs.dropWhile (continuesToken c))
      have hstop : p + 1 + (cs.takeWhile (continuesToken c)).length +
          (cs.dropWhile (continuesToken c)).length + 1 = p + (c :: cs).length + 1 := by
        rw [List.length_cons]
        omega
      rw [hstop] at ih
      rw [scanFrom_token hc, scanFrom_token hc, htw, hdw, ih]
      rcases Token.read p c (cs.takeWhile (continuesToken c)) with e | t
      · rfl
      rcases Token.scanFrom (p + 1 + (cs.takeWhile (continuesToken c)).length)
          (cs.dropWhile (continuesToken c)) with e | ts
      · rfl
      · rcases Token.scanFrom (p + (c :: cs).length + 1) ds with e | us <;> rfl
termination_by cs => cs.length
decreasing_by all_goals simp only [List.length_cons]; omega

/-- Two texts with a blank between are scanned one after the other. -/
theorem scan_append_blank (hw : isBlank w = true) (a b : String) :
    Token.scan (a ++ String.singleton w ++ b) = (Token.scan a).bind fun ts =>
      ((Token.scan b).mapError (Error.moved (a.length + 1))).map fun us =>
        ts ++ us.map (Token.moved (a.length + 1)) := by
  have hlist : (a ++ String.singleton w ++ b).toList = a.toList ++ w :: b.toList := by simp
  have hb := scanFrom_add 0 (a.length + 1) b.toList
  rw [Nat.zero_add] at hb
  unfold Token.scan
  rw [hlist, scanFrom_append_blank hw, Nat.zero_add, String.length_toList, hb]
  rcases Token.scanFrom 0 a.toList with e | ts
  · rfl
  · rcases Token.scanFrom 0 b.toList with e | us <;> rfl

/-! ## Tokens with blanks between -/

/-- The same words at other places: the same lexemes and texts in order. -/
def SameWords (us ts : List Token) : Prop :=
  us.map (fun t => (t.lexeme, t.text)) = ts.map fun t => (t.lexeme, t.text)

theorem sameWords_moved (k : Int) : SameWords (ts.map (Token.moved k)) ts := by
  unfold SameWords
  rw [List.map_map]
  rfl

/-- The text of a token is a text with that token alone. -/
theorem Scans.scan_text {q : Nat} {rest : List Char} (h : Scans p cs ts q rest) :
    ∀ t ∈ ts, Token.scan t.text = .ok [{ t with spot := 0 }] := by
  induction h with
  | done => simp
  | blank _ _ ih => exact ih
  | @token p c cs t ts q rest hc ht _ ih =>
    refine List.forall_mem_cons.2 ⟨?_, ih⟩
    have hall := List.all_eq_true.1 (List.all_takeWhile (p := continuesToken c) (l := cs))
    obtain ⟨htw, hdw⟩ := @takeWhile_dropWhile_append _ [] _ hall (by simp)
    rw [List.append_nil] at htw hdw
    have hscan : Token.scanFrom 0 (c :: cs.takeWhile (continuesToken c)) =
        .ok [{ t with spot := 0 }] := by
      rw [scanFrom_token hc, htw, hdw, read_congr ht 0, Token.scanFrom]
      rfl
    have htext : t.text.toList = c :: cs.takeWhile (continuesToken c) := by
      rw [(read_eq_ok ht).1, String.toList_ofList]
    unfold Token.scan
    rwa [htext]

theorem joined_cons_cons (t t' : Token) (ts : List Token) : Token.joined (t :: t' :: ts) =
    t.text ++ String.singleton ' ' ++ Token.joined (t' :: ts) := by
  unfold Token.joined
  rw [List.map_cons, List.map_cons, String.intercalate_cons_cons]
  rfl

/-- **Tokens with blanks between** are the same tokens again, at other places. -/
theorem scan_joined (h : ∀ t ∈ ts, Token.scan t.text = .ok [{ t with spot := 0 }]) :
    ∃ us, Token.scan (Token.joined ts) = .ok us ∧ SameWords us ts := by
  induction ts with
  | nil => exact ⟨[], by decide +kernel, rfl⟩
  | cons t ts ih =>
    obtain ⟨ht, h⟩ := List.forall_mem_cons.1 h
    cases ts with
    | nil => exact ⟨_, ht, rfl⟩
    | cons t' ts =>
      obtain ⟨us, hs, hu⟩ := ih h
      refine ⟨{ t with spot := 0 } :: us.map (Token.moved (t.text.length + 1)), ?_, ?_⟩
      · rw [joined_cons_cons, scan_append_blank isBlank_space, ht, hs]
        rfl
      · exact congrArg (List.cons (t.lexeme, t.text)) ((sameWords_moved _).trans hu)

/-! ## Blanks between texts -/

/-- **Scanning goes part by part.**  Two texts with a blank between have the tokens of the first and
    then, further on by the first and the blank, those of the second.  If the first cannot be
    scanned, its error is that of both; if only the second cannot, its error is, further on by as
    much.  So the tokens of a text, written with single spaces between, are the same again. -/
theorem scan_blank_between :
    (∀ a b w, isBlank w = true →
      match Token.scan a, Token.scan b with
      | .error e, _ => Token.scan (a ++ String.singleton w ++ b) = .error e
      | .ok _, .error e =>
        Token.scan (a ++ String.singleton w ++ b) = .error (e.moved (a.length + 1))
      | .ok ts, .ok us => Token.scan (a ++ String.singleton w ++ b) =
          .ok (ts ++ us.map (Token.moved (a.length + 1)))) ∧
    ∀ text ts, Token.scan text = .ok ts →
      ∃ us, Token.scan (Token.joined ts) = .ok us ∧ SameWords us ts := by
  refine ⟨fun a b w hw => ?_, fun text ts h => ?_⟩
  · have h := scan_append_blank hw a b
    rcases ha : Token.scan a with e | ts
    · rwa [ha] at h
    rcases hb : Token.scan b with e | us
    · rwa [ha, hb] at h
    · rwa [ha, hb] at h
  · obtain ⟨q, hs⟩ := scanFrom_eq_ok.1 h
    exact scan_joined hs.scan_text

/-- A tab after a number that has two dots, and one before such a number; a quotient without blanks
    that is written with them. -/
theorem scan_blank_between_tab :
    let ts : List Token := [⟨"2", 0, .number (.int 2)⟩, ⟨"x", 1, .name "x"⟩,
      ⟨"÷", 2, .operator "/"⟩, ⟨"٣", 3, .number (.int 3)⟩]
    isBlank '\t' = true ∧ Token.scan "2x÷٣" = .ok ts ∧
    Token.scan ("1.2.3" ++ String.singleton '\t' ++ "2x÷٣") = .error (.malformedNumber "1.2.3" 0) ∧
    Token.scan ("2x÷٣" ++ String.singleton '\t' ++ "1.2.3") = .error (.malformedNumber "1.2.3" 5) ∧
    Token.joined ts = "2 x ÷ ٣" ∧
      ∃ us, Token.scan (Token.joined ts) = .ok us ∧ SameWords us ts := by
  intro ts
  have hw : isBlank '\t' = true := by decide +kernel
  have hs : Token.scan "2x÷٣" = .ok ts := by decide +kernel
  have he : Token.scan "1.2.3" = .error (.malformedNumber "1.2.3" 0) := by decide +kernel
  have hfirst := scan_blank_between.1 "1.2.3" "2x÷٣" '\t' hw
  have hsecond := scan_blank_between.1 "2x÷٣" "1.2.3" '\t' hw
  rw [he] at hfirst
  rw [hs, he] at hsecond
  exact ⟨hw, hs, hfirst, hsecond, by decide +kernel, scan_blank_between.2 _ _ hs⟩

end Reckon
