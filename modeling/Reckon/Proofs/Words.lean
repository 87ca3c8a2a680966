/-
  The words of a text.

  What the words of a text are can be said without reading it from left to right:
  each stands where it says, is spelled as its sort asks for and does not go on, and
  between the words there are only blanks.

  * `Word`: what a token is apart from its value, its characters and its place;
  * `MadeOf p cs ws`: from the position `p` on, the characters `cs` are made of the words
    `ws`; `madeOf_nil`, `madeOf_blank`, `madeOf_word`: by their first character;
  * `Scans.madeOf_iff`: the words of a text are those of its tokens, and there are no
    others;
  * `Lexeme.Means`: what the characters of a token mean; `StopsAt`: what no token can be
    read from;
  * `scan_exact`: what scanning a text comes to.
-/
import Mathlib.Tactic.ByContra
import Reckon.Proofs.Numerals
import Reckon.Proofs.Scanning

namespace Reckon

open Text

/-! ## Words -/

/-- The sorts of words. -/
inductive WordSort where
  | number
  | name
  | operator
  | opening
  | closing
  | comma
  /-- A sort that no text holds. -/
  | other
  deriving DecidableEq

/-- The sort of a lexeme. -/
def Lexeme.sort : Lexeme → WordSort
  | .number _ => .number
  | .name _ => .name
  | .operator _ => .operator
  | .opening => .opening
  | .closing => .closing
  | .comma => .comma
  | .other _ => .other

/-- A word: its sort, its characters, and the number of characters before it. -/
structure Word where
  sort : WordSort
  text : String
  spot : Int

/-- A token apart from its value. -/
def Token.word (t : Token) : Word := ⟨t.lexeme.sort, t.text, t.spot⟩

/-- The position just after a word. -/
def Word.stop (w : Word) : Int := w.spot + w.text.length

/-- The ten signs, and what each stands for. -/
def signs : List (Char × Lexeme) :=
  [('+', .operator "+"), ('-', .operator "-"), ('*', .operator "*"), ('/', .operator "/"),
   ('÷', .operator "/"), ('%', .operator "%"), ('^', .operator "^"), ('(', .opening),
   (')', .closing), (',', .comma)]

namespace WordSort

/-- The characters that go on with a word. -/
def GoesOn : WordSort → Char → Prop
  | number, c => isDigit c = true ∨ c = '.'
  | name, c => isAlphanumeric c = true ∨ c = '_'
  | operator, _ | opening, _ | closing, _ | comma, _ | other, _ => False

/-- How words are spelled: a number begins with a digit and has digits and at most one dot, a name
    begins with a letter or underscore and has letters, numerals and underscores, and every other
    word is one sign. -/
def Spells : WordSort → List Char → Prop
  | number, cs => (∃ c ∈ cs.head?, isDigit c = true) ∧ (∀ c ∈ cs, isDigit c = true ∨ c = '.') ∧
      cs.count '.' ≤ 1
  | name, cs => (∃ c ∈ cs.head?, isLetter c = true ∨ c = '_') ∧
      ∀ c ∈ cs, isAlphanumeric c = true ∨ c = '_'
  | s, cs => ∃ c l, cs = [c] ∧ (c, l) ∈ signs ∧ l.sort = s

/-- The sort of the words that begin with a character. -/
def ofFirst (c : Char) : WordSort :=
  if isDigit c then number
  else if beginsWord c then name
  else match Lexeme.sign? c with
    | some l => l.sort
    | none => other

end WordSort

/-- From a position on, characters are made of words with blanks between: each word stands where it
    says, is spelled as its sort asks for and does not go on, none is empty, they follow on one
    another without overlap, and every character outside of them is blank. -/
structure MadeOf (p : Nat) (cs : List Char) (ws : List Word) : Prop where
  stands : ∀ w ∈ ws, ∃ before after, cs = before ++ (w.text.toList ++ after) ∧
    w.spot = (p + before.length : Nat) ∧ ∀ c ∈ after.head?, ¬ w.sort.GoesOn c
  spelled : ∀ w ∈ ws, w.sort.Spells w.text.toList
  ne_nil : ∀ w ∈ ws, w.text.toList ≠ []
  ordered : ws.Pairwise fun v w => v.stop ≤ w.spot
  blank : ∀ i c, cs[i]? = some c → (∀ w ∈ ws, ¬ (w.spot ≤ (p + i : Nat) ∧ (p + i : Nat) < w.stop)) →
    isBlank c = true

/-- What a token stands for is what its characters mean. -/
inductive Lexeme.Means : List Char → Lexeme → Prop
  | whole {cs} : '.' ∉ cs → cs.length ≤ Decimal.digitLimit →
      Means cs (.number (.int (digitsValue cs)))
  | fraction {whole frac} : '.' ∉ whole → '.' ∉ frac → (fractionValue whole frac).isFinite = true →
      Means (whole ++ '.' :: frac) (.number (.float (fractionValue whole frac)))
  | name {cs} : Means cs (.name (String.ofList cs))
  | sign {c l} : (c, l) ∈ signs → Means [c] l

/-- Digits and dots that are no number. -/
inductive Malformed : List Char → Prop
  | dots {cs} : 1 < cs.count '.' → Malformed cs
  | length {cs} : '.' ∉ cs → Decimal.digitLimit < cs.length → Malformed cs
  | size {whole frac} : '.' ∉ whole → '.' ∉ frac → (fractionValue whole frac).isFinite = false →
      Malformed (whole ++ '.' :: frac)

/-- What no token can be read from, after so many characters, and the error that says so. -/
inductive StopsAt (p : Nat) : List Char → Error → Prop
  /-- A character of no class. -/
  | character {c rest} : isBlank c = false → isDigit c = false → isLetter c = false → c ≠ '_' →
      (∀ l, (c, l) ∉ signs) → StopsAt p (c :: rest) (.unexpectedCharacter (String.singleton c) p)
  /-- All the digits and dots from a digit on. -/
  | numeral {cs rest} : (∃ c ∈ cs.head?, isDigit c = true) →
      (∀ c ∈ cs, WordSort.number.GoesOn c) → (∀ c ∈ rest.head?, ¬ WordSort.number.GoesOn c) →
      Malformed cs → StopsAt p (cs ++ rest) (.malformedNumber (String.ofList cs) p)

variable {p q : Nat} {c d : Char} {cs ds more rest before : List Char} {w : Word} {ws : List Word}
  {t : Token} {ts : List Token} {s : WordSort} {l : Lexeme} {n : Number} {e : Error}

/-! ## First characters -/

theorem sign?_eq_some_iff : Lexeme.sign? c = some l ↔ (c, l) ∈ signs := by
  constructor
  · intro h
    unfold Lexeme.sign? at h
    split at h
    · simp_all [signs]
    split at h
    · simp_all [signs]
    split at h
    · simp_all [signs]
    split at h
    · simp_all [signs]
    split at h
    · rename_i hc
      cases h
      simp only [List.mem_cons, List.not_mem_nil, or_false] at hc
      rcases hc with rfl | rfl | rfl | rfl | rfl | rfl <;> simp [signs]
    · cases h
  · intro h
    simp only [signs, List.mem_cons, Prod.mk.injEq, List.not_mem_nil, or_false] at h
    rcases h with ⟨rfl, rfl⟩ | ⟨rfl, rfl⟩ | ⟨rfl, rfl⟩ | ⟨rfl, rfl⟩ | ⟨rfl, rfl⟩ | ⟨rfl, rfl⟩ |
      ⟨rfl, rfl⟩ | ⟨rfl, rfl⟩ | ⟨rfl, rfl⟩ | ⟨rfl, rfl⟩ <;> decide

/-- Signs are of no other class of characters. -/
theorem class_of_sign (h : (c, l) ∈ signs) :
    isBlank c = false ∧ isDigit c = false ∧ beginsWord c = false := by
  have hall : ∀ e ∈ signs, isBlank e.1 = false ∧ isDigit e.1 = false ∧ beginsWord e.1 = false := by
    decide +kernel
  exact hall _ h

theorem isDigit_eq_false_of_beginsWord (h : beginsWord c = true) : isDigit c = false := by
  rcases Bool.or_eq_true_iff.1 h with h | h
  · have hl : CharClass.of c = .letter := of_decide_eq_true h
    simp [isDigit, hl]
  · cases of_decide_eq_true h
    decide +kernel

/-- Letters and the underscore are no blanks. -/
theorem isBlank_eq_false_of_beginsWord (h : beginsWord c = true) : isBlank c = false := by
  rcases Bool.or_eq_true_iff.1 h with h | h
  · have hl : CharClass.of c = .letter := of_decide_eq_true h
    rw [Bool.eq_false_iff, Ne, isBlank_iff, hl]
    simp
  · cases of_decide_eq_true h
    decide +kernel

theorem beginsWord_iff : beginsWord c = true ↔ isLetter c = true ∨ c = '_' := by
  simp [beginsWord]

/-- What goes on with a word goes on with its first character. -/
theorem goesOn_ofFirst : (WordSort.ofFirst c).GoesOn d ↔ continuesToken c d = true := by
  unfold WordSort.ofFirst continuesToken
  split
  · simp [WordSort.GoesOn, continuesNumeral]
  split
  · simp [WordSort.GoesOn, continuesWord]
  split
  · rename_i l hl
    have hn : ∀ e ∈ signs, ¬ e.2.sort.GoesOn d := by simp [signs, Lexeme.sort, WordSort.GoesOn]
    simpa using hn _ (sign?_eq_some_iff.1 hl)
  · simp [WordSort.GoesOn]

/-- The first character of a word shows its sort, and the others go on with it. -/
theorem WordSort.Spells.cons (h : s.Spells (c :: cs)) :
    s = ofFirst c ∧ isBlank c = false ∧ ∀ d ∈ cs, s.GoesOn d := by
  cases s with
  | number =>
    obtain ⟨⟨_, ⟨⟩, hc⟩, hd, -⟩ := h
    refine ⟨by simp [ofFirst, hc], isBlank_eq_false_of_isDigit hc, fun d hm => ?_⟩
    exact hd d (List.mem_cons_of_mem _ hm)
  | name =>
    obtain ⟨⟨_, ⟨⟩, hc⟩, hd⟩ := h
    have hw := beginsWord_iff.2 hc
    refine ⟨by simp [ofFirst, hw, isDigit_eq_false_of_beginsWord hw],
      isBlank_eq_false_of_beginsWord hw, fun d hm => ?_⟩
    exact hd d (List.mem_cons_of_mem _ hm)
  | operator | opening | closing | comma | other =>
    obtain ⟨_, l, ⟨⟩, hl, hs⟩ := h
    obtain ⟨hb, hd, hw⟩ := class_of_sign hl
    exact ⟨by simp [ofFirst, hd, hw, sign?_eq_some_iff.2 hl, hs], hb, by simp⟩

/-! ## Words by their first character -/

theorem takeWhile_dropWhile_append {p : Char → Bool} (hc : ∀ d ∈ cs, p d = true)
    (hd : ∀ d ∈ ds.head?, p d = false) :
    (cs ++ ds).takeWhile p = cs ∧ (cs ++ ds).dropWhile p = ds := by
  rw [List.takeWhile_append_of_pos hc, List.dropWhile_append_of_pos hc]
  cases ds with
  | nil => simp
  | cons d ds =>
    have hd : p d = false := hd d rfl
    simp [hd]

theorem head?_dropWhile {p : Char → Bool} : ∀ d ∈ (cs.dropWhile p).head?, p d = false := by
  intro d hd
  have hn := List.head?_dropWhile_not p cs
  rw [Option.mem_def.1 hd] at hn
  simpa using hn

/-- The word that begins with a character and is as long as can be. -/
def Word.longest (p : Nat) (c : Char) (cs : List Char) : Word :=
  ⟨.ofFirst c, String.ofList (c :: cs.takeWhile (continuesToken c)), p⟩

theorem madeOf_nil : MadeOf p [] ws ↔ ws = [] := by
  constructor
  · intro h
    rcases ws with _ | ⟨w, ws⟩
    · rfl
    · obtain ⟨before, after, hn, -⟩ := h.stands w (List.mem_cons_self ..)
      obtain ⟨-, hn⟩ := List.append_eq_nil_iff.1 hn.symm
      exact absurd (List.append_eq_nil_iff.1 hn).1 (h.ne_nil w (List.mem_cons_self ..))
  · rintro rfl
    exact ⟨by simp, by simp, by simp, by simp, by simp⟩

/-- A word stands after as many characters as it says. -/
theorem MadeOf.le_spot (h : MadeOf p cs ws) (hw : w ∈ ws) : (p : Int) ≤ w.spot := by
  obtain ⟨before, after, -, hs, -⟩ := h.stands w hw
  omega

theorem MadeOf.lt_stop (h : MadeOf p cs ws) (hw : w ∈ ws) : w.spot < w.stop := by
  have hn := List.length_pos_iff.2 (h.ne_nil w hw)
  rw [String.length_toList] at hn
  rw [Word.stop]
  omega

/-- A word that stands at the first of the characters begins with it. -/
theorem MadeOf.eq_longest (h : MadeOf p (c :: cs) ws) (hw : w ∈ ws) (hp : w.spot = p) :
    w = Word.longest p c cs ∧ isBlank c = false := by
  obtain ⟨before, after, hc, hs, ha⟩ := h.stands w hw
  have hb : before = [] := List.length_eq_zero_iff.1 (by omega)
  obtain ⟨d, ds, hd⟩ := List.exists_cons_of_ne_nil (h.ne_nil w hw)
  rw [hb, hd, List.nil_append, List.cons_append] at hc
  obtain ⟨rfl, rfl⟩ := List.cons.inj hc
  have hsp := h.spelled w hw
  rw [hd] at hsp
  obtain ⟨hsort, hbl, hon⟩ := hsp.cons
  have htw : (ds ++ after).takeWhile (continuesToken c) = ds := by
    refine (takeWhile_dropWhile_append (fun x hx => ?_) fun x hx => ?_).1
    · exact goesOn_ofFirst.1 (hsort ▸ hon x hx)
    · have hx := ha x hx
      rw [hsort, goesOn_ofFirst] at hx
      simpa using hx
  refine ⟨?_, hbl⟩
  obtain ⟨sort, text, spot⟩ := w
  simp only at hd hsort hp
  rw [Word.longest, htw, ← hd, String.ofList_toList, hsort, hp]

/-- Behind the first words, characters are made of the other words. -/
theorem MadeOf.of_append {b : List Char} {u v : List Word} (h : MadeOf p (b ++ cs) (u ++ v))
    (hu : ∀ w ∈ u, w.stop ≤ (p + b.length : Nat))
    (hv : ∀ w ∈ v, ((p + b.length : Nat) : Int) ≤ w.spot) : MadeOf (p + b.length) cs v where
  stands w hm := by
    obtain ⟨before, after, hc, hs, ha⟩ := h.stands w (List.mem_append_right _ hm)
    have hl : b.length ≤ before.length := by
      have := hv w hm
      omega
    have hd := congrArg (List.drop b.length) hc
    rw [List.drop_left, List.drop_append_of_le_length hl] at hd
    refine ⟨before.drop b.length, after, hd, ?_, ha⟩
    rw [hs, List.length_drop]
    omega
  spelled w hm := h.spelled w (List.mem_append_right _ hm)
  ne_nil w hm := h.ne_nil w (List.mem_append_right _ hm)
  ordered := (List.pairwise_append.1 h.ordered).2.1
  blank i c hi hn := by
    have hg : (b ++ cs)[b.length + i]? = some c := by
      rw [List.getElem?_append_right (by omega)]
      simpa using hi
    refine h.blank _ c hg fun w hw => ?_
    rcases List.mem_append.1 hw with hw | hw
    · have := hu w hw
      omega
    · have := hn w hw
      omega

/-- No word begins with a blank. -/
theorem madeOf_blank (hc : isBlank c = true) : MadeOf p (c :: cs) ws ↔ MadeOf (p + 1) cs ws := by
  constructor
  · intro h
    refine MadeOf.of_append (b := [c]) (u := []) h (by simp) fun w hw => ?_
    have hle := h.le_spot hw
    have hne : w.spot ≠ p := by
      intro hp
      rw [(h.eq_longest hw hp).2] at hc
      cases hc
    simp only [List.length_singleton]
    omega
  · intro h
    refine ⟨fun w hw => ?_, h.spelled, h.ne_nil, h.ordered, fun i d hi hn => ?_⟩
    · obtain ⟨before, after, rfl, hs, ha⟩ := h.stands w hw
      refine ⟨c :: before, after, rfl, ?_, ha⟩
      rw [hs, List.length_cons]
      omega
    · cases i with
      | zero =>
        cases hi
        exact hc
      | succ i =>
        refine h.blank i d hi fun w hw => ?_
        have := hn w hw
        omega

theorem Word.stop_longest : (Word.longest p c cs).stop =
    (p + (c :: cs.takeWhile (continuesToken c)).length : Nat) := by
  rw [Word.stop, Word.longest, String.length_ofList]
  rfl

theorem longest_append (p : Nat) (c : Char) (cs : List Char) :
    (Word.longest p c cs).text.toList ++ cs.dropWhile (continuesToken c) = c :: cs := by
  rw [Word.longest, String.toList_ofList, List.cons_append, List.takeWhile_append_dropWhile]

/-- Where no blank stands, the first word is one as long as can be. -/
theorem MadeOf.exists_cons (h : MadeOf p (c :: cs) ws) (hc : isBlank c = false) :
    ∃ vs, ws = Word.longest p c cs :: vs := by
  -- some word holds the first character, since it is no blank
  obtain ⟨w, hw, hp⟩ : ∃ w ∈ ws, w.spot = p := by
    by_contra hn
    have hb := h.blank 0 c rfl fun w hw hin => hn ⟨w, hw, by have := h.le_spot hw; omega⟩
    rw [hc] at hb
    cases hb
  obtain ⟨v, vs, rfl⟩ := List.exists_cons_of_ne_nil (List.ne_nil_of_mem hw)
  have hv : v.spot = p := by
    rcases List.mem_cons.1 hw with rfl | hwv
    · exact hp
    · have h1 := (List.pairwise_cons.1 h.ordered).1 w hwv
      have h2 := h.le_spot (List.mem_cons_self (a := v) (l := vs))
      have h3 := h.lt_stop (List.mem_cons_self (a := v) (l := vs))
      omega
  exact ⟨vs, by rw [(h.eq_longest (List.mem_cons_self ..) hv).1]⟩

theorem MadeOf.cons_longest
    (hs : (WordSort.ofFirst c).Spells (c :: cs.takeWhile (continuesToken c)))
    (h : MadeOf (p + (c :: cs.takeWhile (continuesToken c)).length)
      (cs.dropWhile (continuesToken c)) ws) :
    MadeOf p (c :: cs) (Word.longest p c cs :: ws) := by
  have htext : (Word.longest p c cs).text.toList = c :: cs.takeWhile (continuesToken c) :=
    String.toList_ofList
  have hcs := longest_append p c cs
  have hstop := @Word.stop_longest p c cs
  refine ⟨List.forall_mem_cons.2 ⟨?_, ?_⟩, List.forall_mem_cons.2 ⟨?_, h.spelled⟩,
    List.forall_mem_cons.2 ⟨?_, h.ne_nil⟩, List.pairwise_cons.2 ⟨?_, h.ordered⟩, ?_⟩
  · refine ⟨[], cs.dropWhile (continuesToken c), hcs.symm, rfl, fun d hd hg => ?_⟩
    have hn := head?_dropWhile d hd
    rw [goesOn_ofFirst.1 hg] at hn
    cases hn
  · intro w hw
    obtain ⟨before, after, hb, hs, ha⟩ := h.stands w hw
    refine ⟨(c :: cs.takeWhile (continuesToken c)) ++ before, after, ?_, ?_, ha⟩
    · rw [List.append_assoc, ← hb, ← htext, hcs]
    · rw [hs, List.length_append]
      omega
  · rw [htext]
    exact hs
  · rw [htext]
    exact List.cons_ne_nil _ _
  · intro v hv
    rw [hstop]
    exact h.le_spot hv
  · intro i d hi hn
    obtain ⟨hfirst, hn⟩ := List.forall_mem_cons.1 hn
    have hp : (Word.longest p c cs).spot = p := rfl
    have hle : (c :: cs.takeWhile (continuesToken c)).length ≤ i := by omega
    rw [← hcs, htext, List.getElem?_append_right hle] at hi
    refine h.blank _ d hi fun w hw => ?_
    have := hn w hw
    omega

/-- Where no blank stands, there begins a word as long as can be. -/
theorem madeOf_word (hc : isBlank c = false) : MadeOf p (c :: cs) ws ↔
    ∃ vs, ws = Word.longest p c cs :: vs ∧
      (WordSort.ofFirst c).Spells (c :: cs.takeWhile (continuesToken c)) ∧
      MadeOf (p + (c :: cs.takeWhile (continuesToken c)).length)
        (cs.dropWhile (continuesToken c)) vs := by
  constructor
  · intro h
    obtain ⟨vs, rfl⟩ := h.exists_cons hc
    have hs := h.spelled _ (List.mem_cons_self ..)
    rw [Word.longest, String.toList_ofList] at hs
    refine ⟨vs, rfl, hs, MadeOf.of_append (u := [Word.longest p c cs]) ?_ ?_ ?_⟩
    · rw [List.cons_append, List.takeWhile_append_dropWhile]
      exact h
    · intro u hu
      have hstop := congrArg Word.stop (List.mem_singleton.1 hu)
      exact Int.le_of_eq (hstop.trans Word.stop_longest)
    · intro v hv
      rw [← Word.stop_longest]
      exact (List.pairwise_cons.1 h.ordered).1 v hv
  · rintro ⟨vs, rfl, hs, h⟩
    exact h.cons_longest hs

/-! ## What characters mean -/

theorem read?_eq_some (h : Number.read? cs = some n) :
    (Lexeme.number n).Means cs ∧ cs.count '.' ≤ 1 := by
  rcases Nat.lt_trichotomy (cs.count '.') 1 with hc | hc | hc
  · have hdot : '.' ∉ cs := List.count_eq_zero.1 (by omega)
    rw [read?_whole hdot] at h
    split at h
    · rename_i hlen
      cases h
      exact ⟨.whole hdot hlen, by omega⟩
    · cases h
  · obtain ⟨whole, frac, rfl, hw, hf⟩ := exists_fraction hc
    rw [read?_fraction hw hf] at h
    split at h
    · rename_i hfin
      cases h
      exact ⟨.fraction hw hf hfin, by omega⟩
    · cases h
  · rw [read?_dots hc] at h
    cases h

theorem read?_eq_none (h : Number.read? cs = none) : Malformed cs := by
  rcases Nat.lt_trichotomy (cs.count '.') 1 with hc | hc | hc
  · have hdot : '.' ∉ cs := List.count_eq_zero.1 (by omega)
    rw [read?_whole hdot] at h
    split at h
    · cases h
    · exact .length hdot (by omega)
  · obtain ⟨whole, frac, rfl, hw, hf⟩ := exists_fraction hc
    rw [read?_fraction hw hf] at h
    split at h
    · cases h
    · rename_i hfin
      exact .size hw hf (by simpa using hfin)
  · exact .dots hc

/-- The integers that are read are not negative, and short enough to be written. -/
theorem Lexeme.Means.natural {i : Int} (h : (Lexeme.number (.int i)).Means cs) :
    ∃ k : Nat, i = k ∧ (Number.int k).isWritable = true := by
  cases h with
  | whole _ hlen =>
    refine ⟨digitsValue cs, rfl, isWritable_natCast.2 ?_⟩
    exact Nat.lt_of_lt_of_le (digitsValue_lt cs) (Nat.pow_le_pow_right (by decide) hlen)
  | sign hs => simp [signs] at hs

/-- A token that is read is a word as long as can be, with the meaning of its characters. -/
theorem word_of_read (h : Token.read p c (cs.takeWhile (continuesToken c)) = .ok t) :
    t.word = Word.longest p c cs ∧
      (WordSort.ofFirst c).Spells (c :: cs.takeWhile (continuesToken c)) ∧
      t.lexeme.Means t.text.toList := by
  have hon : ∀ d ∈ cs.takeWhile (continuesToken c), (WordSort.ofFirst c).GoesOn d := fun d hd =>
    goesOn_ofFirst.2 (List.all_eq_true.1 List.all_takeWhile d hd)
  unfold Token.read at h
  unfold Word.longest Token.word
  split at h
  · rename_i hd
    have hs : WordSort.ofFirst c = .number := by simp [WordSort.ofFirst, hd]
    rw [hs] at hon ⊢
    split at h
    · rename_i n hn
      cases h
      obtain ⟨hm, hdots⟩ := read?_eq_some hn
      refine ⟨rfl, ⟨⟨c, rfl, hd⟩, List.forall_mem_cons.2 ⟨.inl hd, hon⟩, hdots⟩, ?_⟩
      rwa [String.toList_ofList]
    · cases h
  rename_i hd
  split at h
  · rename_i hw
    have hs : WordSort.ofFirst c = .name := by simp [WordSort.ofFirst, hd, hw]
    have ha : isAlphanumeric c = true ∨ c = '_' := by
      refine (beginsWord_iff.1 hw).imp_left fun hl => ?_
      have hl : CharClass.of c = .letter := of_decide_eq_true hl
      simp [isAlphanumeric, hl]
    cases h
    rw [hs] at hon ⊢
    refine ⟨rfl, ⟨⟨c, rfl, beginsWord_iff.1 hw⟩, List.forall_mem_cons.2 ⟨ha, hon⟩⟩, ?_⟩
    rw [String.toList_ofList]
    exact .name
  rename_i hw
  split at h
  · rename_i l hl
    cases h
    have hs : WordSort.ofFirst c = l.sort := by simp [WordSort.ofFirst, hd, hw, hl]
    have hm : cs.takeWhile (continuesToken c) = [] :=
      takeWhile_of_sign (Bool.eq_false_iff.2 hd) (Bool.eq_false_iff.2 hw)
    have hl := sign?_eq_some_iff.1 hl
    have hsp : ∀ e ∈ signs, e.2.sort.Spells [e.1] := by
      simp [signs, Lexeme.sort, WordSort.Spells]
    rw [hm, hs]
    refine ⟨rfl, hsp _ hl, ?_⟩
    rw [String.toList_ofList]
    exact .sign hl
  · cases h

/-- Where no token can be read, there is none. -/
theorem stopsAt_of_read (hc : isBlank c = false)
    (h : Token.read p c (cs.takeWhile (continuesToken c)) = .error e) : StopsAt p (c :: cs) e := by
  unfold Token.read at h
  split at h
  · rename_i hd
    split at h
    · cases h
    · rename_i hn
      cases h
      have hs : WordSort.ofFirst c = .number := by simp [WordSort.ofFirst, hd]
      have hcs : c :: cs =
          (c :: cs.takeWhile (continuesToken c)) ++ cs.dropWhile (continuesToken c) := by
        rw [List.cons_append, List.takeWhile_append_dropWhile]
      rw [hcs]
      refine .numeral ⟨c, rfl, hd⟩ (List.forall_mem_cons.2 ⟨.inl hd, fun d hm => ?_⟩)
        (fun d hm => ?_) (read?_eq_none hn)
      · rw [← hs, goesOn_ofFirst]
        exact List.all_eq_true.1 List.all_takeWhile d hm
      · rw [← hs, goesOn_ofFirst, head?_dropWhile d hm]
        simp
  rename_i hd
  split at h
  · cases h
  rename_i hw
  split at h
  · cases h
  · rename_i hl
    cases h
    have hm : cs.takeWhile (continuesToken c) = [] :=
      takeWhile_of_sign (Bool.eq_false_iff.2 hd) (Bool.eq_false_iff.2 hw)
    rw [beginsWord_iff, not_or] at hw
    rw [hm]
    refine .character hc (Bool.eq_false_iff.2 hd) (Bool.eq_false_iff.2 hw.1) hw.2 fun l hs => ?_
    rw [sign?_eq_some_iff.2 hs] at hl
    cases hl

/-! ## Texts -/

/-- The words of a text are those of its tokens, and no others. -/
theorem Scans.madeOf_iff (h : Scans p cs ts q rest) :
    rest = [] → ∀ ws, MadeOf p cs ws ↔ ws = ts.map Token.word := by
  induction h with
  | done =>
    rintro rfl ws
    exact madeOf_nil
  | blank hc _ ih =>
    intro hr ws
    rw [madeOf_blank hc, ih hr]
  | token hc ht _ ih =>
    intro hr ws
    obtain ⟨hw, hs, -⟩ := word_of_read ht
    rw [madeOf_word hc, List.map_cons, hw]
    constructor
    · rintro ⟨vs, rfl, -, hv⟩
      rw [List.length_cons, ← Nat.add_assoc, Nat.add_right_comm] at hv
      rw [(ih hr vs).1 hv]
    · rintro rfl
      refine ⟨_, rfl, hs, ?_⟩
      rw [List.length_cons, ← Nat.add_assoc, Nat.add_right_comm]
      exact (ih hr _).2 rfl

theorem Scans.means (h : Scans p cs ts q rest) : ∀ t ∈ ts, t.lexeme.Means t.text.toList := by
  induction h with
  | done => simp
  | blank _ _ ih => exact ih
  | token _ ht _ ih => exact List.forall_mem_cons.2 ⟨(word_of_read ht).2.2, ih⟩

/-- The texts of the tokens, one after the other, are the text without its blanks. -/
theorem Scans.joined (h : Scans p cs ts q rest) :
    rest = [] → ts.flatMap (·.text.toList) = cs.filter fun c => !isBlank c := by
  induction h with
  | done =>
    rintro rfl
    rfl
  | blank hc _ ih =>
    intro hr
    rw [ih hr, List.filter_cons_of_neg (by simp [hc])]
  | @token p c cs t ts q rest hc ht _ ih =>
    intro hr
    obtain ⟨htext, -⟩ := read_eq_ok ht
    have hsolid : (c :: cs.takeWhile (continuesToken c)).filter (fun d => !isBlank d) =
        c :: cs.takeWhile (continuesToken c) := by
      refine List.filter_eq_self.2 fun d hd => ?_
      simp [isBlank_of_mem_token hc d hd]
    have hcs : c :: cs =
        (c :: cs.takeWhile (continuesToken c)) ++ cs.dropWhile (continuesToken c) := by
      rw [List.cons_append, List.takeWhile_append_dropWhile]
    rw [List.flatMap_cons, ih hr, htext, String.toList_ofList, hcs, List.filter_append, hsolid]

/-- What is read before a position is read without what comes after it. -/
theorem Scans.upTo (h : Scans p cs ts q rest) : ∀ mid, cs = mid ++ rest → Scans p mid ts q [] := by
  induction h with
  | done =>
    intro mid hm
    rw [List.self_eq_append_left.1 hm]
    exact .done
  | @blank p c cs ts q rest hc hs ih =>
    intro mid hm
    obtain ⟨mid', rfl, -⟩ := hs.exists_append
    rw [← List.cons_append, List.append_left_inj] at hm
    rw [← hm]
    exact .blank hc (ih mid' rfl)
  | @token p c cs t ts q rest hc ht hs ih =>
    intro mid hm
    obtain ⟨mid', hd, -⟩ := hs.exists_append
    have hcs : cs = cs.takeWhile (continuesToken c) ++ mid' ++ rest := by
      rw [List.append_assoc, ← hd, List.takeWhile_append_dropWhile]
    rw [hcs, ← List.cons_append, List.append_left_inj] at hm
    -- the token ends before the rest, so that it is as long without it
    have hmid : ∀ d ∈ mid'.head?, continuesToken c d = false := by
      intro d hdm
      refine @head?_dropWhile cs _ d ?_
      rw [hd, List.head?_append, Option.mem_def.1 hdm]
      rfl
    obtain ⟨htw, hdw⟩ := takeWhile_dropWhile_append
      (List.all_eq_true.1 (List.all_takeWhile (p := continuesToken c) (l := cs))) hmid
    rw [← hm]
    refine .token hc ?_ ?_
    · rwa [htw]
    · rw [htw, hdw]
      exact ih mid' hd

/-- **Scanning is exact.**  If a text can be scanned, it is made of the words of its tokens, each
    with the meaning of its characters, their characters are the text without its blanks, and the
    text is made of no other words.  If it cannot, then what comes before the position of the error
    can be scanned, and there stands what the error says. -/
theorem scan_exact (text : String) :
    match Token.scan text with
    | .ok ts => MadeOf 0 text.toList (ts.map Token.word) ∧
        (∀ t ∈ ts, t.lexeme.Means t.text.toList) ∧
        ts.flatMap (·.text.toList) = (text.toList.filter fun c => !isBlank c) ∧
        ∀ ws, MadeOf 0 text.toList ws → ws = ts.map Token.word
    | .error e => ∃ before after ts, text.toList = before ++ after ∧
        Token.scan (String.ofList before) = .ok ts ∧ StopsAt before.length after e := by
  unfold Token.scan
  rcases scanFrom_cases 0 text.toList with ⟨ts, q, h, hs⟩ | ⟨ts, q, c, rest, e, h, hs, hc, hr⟩
  · rw [h]
    exact ⟨(hs.madeOf_iff rfl _).2 rfl, hs.means, hs.joined rfl,
      fun ws => (hs.madeOf_iff rfl ws).1⟩
  · rw [h]
    obtain ⟨before, hb, hq⟩ := hs.exists_append
    rw [Nat.zero_add] at hq
    refine ⟨before, c :: rest, ts, hb, ?_, ?_⟩
    · rw [String.toList_ofList]
      exact (hs.upTo before hb).scanFrom_eq rfl
    · rw [← hq]
      exact stopsAt_of_read hc hr

end Reckon
