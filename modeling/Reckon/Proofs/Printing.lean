/-
  The text of a tree is read back as the tree.

  A tree is written with parentheses round every operation, so that its text is a
  single primary wherever it stands.  The tokens of the text are those that the tree
  is written with: a name is followed by a blank, a comma or a parenthesis, and so
  is a number, so that neither goes on.

  * `Lexes cs ls`: characters are scanned as tokens with the given lexemes;
    `Lexes.append`, `Lexes.sign`, `Lexes.blank`: by their parts;
  * `Expr.printed`: the tokens that a tree is written with; `Expr.depth`: how deep they
    nest;
  * `lexes_render`: they are the tokens of its text; `forms_printed`: they mean the
    tree;
  * `parseText_render`: the tree of a text is read back from its own text, and comes to
    the same.
-/
import Reckon.Proofs.Substitution
import Reckon.Proofs.Writing

namespace Reckon

open Text

/-! ## Scanning part by part -/

/-- Characters are scanned as tokens with the given lexemes. -/
def Lexes (cs : List Char) (ls : List Lexeme) : Prop :=
  ∃ ts q, Scans 0 cs ts q [] ∧ ts.map Token.lexeme = ls

/-- A character that goes on with no token. -/
def Parts (c : Char) : Prop := ∀ first, continuesToken first c = false

section
variable {p q : Nat} {c : Char} {cs ds rest mid : List Char} {t : Token} {ts us : List Token}
  {l : Lexeme} {ls ms : List Lexeme} {x : String} {k : Nat}

theorem parts_of_sign (h : (c, l) ∈ signs) : Parts c := by
  have hall : ∀ e ∈ signs, isDigit e.1 = false ∧ isAlphanumeric e.1 = false ∧ e.1 ≠ '.' ∧
      e.1 ≠ '_' := by
    decide +kernel
  obtain ⟨hd, ha, hdot, hu⟩ := hall _ h
  intro first
  simp only at hd ha hdot hu
  simp [continuesToken, continuesNumeral, continuesWord, hd, ha, hdot, hu]

theorem isBlank_space : isBlank ' ' = true := by decide +kernel

theorem parts_of_blank (h : isBlank c = true) : Parts c := by
  intro first
  by_contra hn
  have hc : continuesToken first c = true := by simpa using hn
  rw [isBlank_of_continuesToken hc] at h
  cases h

theorem Scans.trans (h : Scans p cs ts q mid) :
    ∀ {us r}, Scans q mid us r rest → Scans p cs (ts ++ us) r rest := by
  induction h with
  | done => exact fun h => h
  | blank hc _ ih => exact fun h => .blank hc (ih h)
  | token hc ht _ ih => exact fun h => .token hc ht (ih h)

/-- A token is read the same wherever it stands. -/
theorem read_congr (h : Token.read p c cs = .ok t) (p' : Nat) :
    Token.read p' c cs = .ok { t with spot := p' } := by
  unfold Token.read at h ⊢
  split at h
  · rename_i hd
    split at h
    · cases h
      simp [hd]
    · cases h
  rename_i hd
  split at h
  · rename_i hw
    cases h
    simp [hd, hw]
  rename_i hw
  split at h
  · cases h
    simp [hd, hw]
  · cases h

/-- What is scanned to its end is scanned the same elsewhere, before anything that begins with a
    character that parts it from the rest. -/
theorem Scans.before (h : Scans p cs ts q mid) : mid = [] → (∀ c ∈ rest.head?, Parts c) →
    ∀ p', ∃ ts' q', Scans p' (cs ++ rest) ts' q' rest ∧
      ts'.map Token.lexeme = ts.map Token.lexeme := by
  induction h with
  | done =>
    rintro rfl - p'
    exact ⟨[], p', .done, rfl⟩
  | blank hc _ ih =>
    intro hm hr p'
    obtain ⟨ts', q', hs, hl⟩ := ih hm hr (p' + 1)
    exact ⟨ts', q', .blank hc hs, hl⟩
  | @token p c cs t ts q mid hc ht _ ih =>
    intro hm hr p'
    obtain ⟨ts', q', hs, hl⟩ := ih hm hr (p' + 1 + (cs.takeWhile (continuesToken c)).length)
    have hall := List.all_eq_true.1 (List.all_takeWhile (p := continuesToken c) (l := cs))
    -- the token ends where it did: at a character it does not go on with, or before the rest
    have hhead : ∀ d ∈ (cs.dropWhile (continuesToken c) ++ rest).head?,
        continuesToken c d = false := by
      intro d hd
      rw [List.head?_append, Option.mem_def, Option.or_eq_some_iff] at hd
      rcases hd with hd | ⟨-, hd⟩
      · exact head?_dropWhile d hd
      · exact hr d hd c
    obtain ⟨htw, hdw⟩ := takeWhile_dropWhile_append hall hhead
    rw [← List.append_assoc, List.takeWhile_append_dropWhile] at htw hdw
    rw [List.cons_append]
    refine ⟨{ t with spot := p' } :: ts', q', .token hc ?_ ?_, ?_⟩
    · rw [htw]
      exact read_congr ht p'
    · rw [htw, hdw]
      exact hs
    · rw [List.map_cons, List.map_cons, hl]

theorem Lexes.at (h : Lexes cs ls) (p : Nat) : ∃ ts q, Scans p cs ts q [] ∧
    ts.map Token.lexeme = ls := by
  obtain ⟨ts, q, hs, rfl⟩ := h
  obtain ⟨ts', q', hs', hl⟩ := @Scans.before _ _ _ [] _ _ hs rfl (by simp) p
  rw [List.append_nil] at hs'
  exact ⟨ts', q', hs', hl⟩

theorem lexes_nil : Lexes [] [] := ⟨[], 0, .done, rfl⟩

/-- One text after another, if it begins with a character that parts them. -/
theorem Lexes.append (h : Lexes cs ls) (h' : Lexes ds ms) (hd : ∀ c ∈ ds.head?, Parts c) :
    Lexes (cs ++ ds) (ls ++ ms) := by
  obtain ⟨ts, q, hs, rfl⟩ := h
  obtain ⟨ts', q', hs', hl⟩ := hs.before rfl hd 0
  obtain ⟨us, r, hu, rfl⟩ := h'.at q'
  exact ⟨ts' ++ us, r, hs'.trans hu, by rw [List.map_append, hl]⟩

/-- A sign parts itself from whatever follows. -/
theorem Lexes.sign (hc : (c, l) ∈ signs) (h : Lexes cs ls) : Lexes (c :: cs) (l :: ls) := by
  obtain ⟨hb, hd, hw⟩ := class_of_sign hc
  have hm : cs.takeWhile (continuesToken c) = [] := takeWhile_of_sign hd hw
  have hdw : cs.dropWhile (continuesToken c) = cs := by
    have := List.takeWhile_append_dropWhile (p := continuesToken c) (l := cs)
    rwa [hm] at this
  obtain ⟨ts, q, hs, rfl⟩ := h.at 1
  refine ⟨⟨String.ofList [c], 0, l⟩ :: ts, q, .token hb ?_ ?_, rfl⟩
  · rw [hm, Token.read, if_neg (by simp [hd]), if_neg (by simp [hw]), sign?_eq_some_iff.2 hc]
    rfl
  · rw [hm, hdw]
    exact hs

theorem Lexes.blank (hc : isBlank c = true) (h : Lexes cs ls) : Lexes (c :: cs) ls := by
  obtain ⟨ts, q, hs, rfl⟩ := h.at 1
  exact ⟨ts, q, .blank hc hs, rfl⟩

theorem Lexes.append_sign (h : Lexes cs ls) (hc : (c, l) ∈ signs) (h' : Lexes ds ms) :
    Lexes (cs ++ c :: ds) (ls ++ l :: ms) := by
  refine h.append (.sign hc h') ?_
  rintro _ ⟨⟩
  exact parts_of_sign hc

theorem Lexes.append_blank (h : Lexes cs ls) (hc : isBlank c = true) (h' : Lexes ds ms) :
    Lexes (cs ++ c :: ds) (ls ++ ms) := by
  refine h.append (.blank hc h') ?_
  rintro _ ⟨⟩
  exact parts_of_blank hc

theorem Lexes.close (h : Lexes cs ls) : Lexes (cs ++ [')']) (ls ++ [.closing]) :=
  h.append_sign (by simp [signs]) lexes_nil

theorem Lexes.parens (h : Lexes cs ls) :
    Lexes ('(' :: (cs ++ [')'])) (.opening :: (ls ++ [.closing])) := .sign (by simp [signs]) h.close

/-- A token that is read from all of a text. -/
theorem lexes_singleton (hc : isBlank c = false) (hm : ∀ d ∈ cs, continuesToken c d = true)
    (ht : Token.read 0 c cs = .ok t) : Lexes (c :: cs) [t.lexeme] := by
  obtain ⟨htw, hdw⟩ := @takeWhile_dropWhile_append cs [] _ hm (by simp)
  rw [List.append_nil] at htw hdw
  have hs : Scans 0 (c :: cs) [t] (0 + 1 + cs.length) [] := by
    refine .token hc (by rwa [htw]) ?_
    rw [htw, hdw]
    exact .done
  exact ⟨[t], _, hs, rfl⟩

/-- A token of a text is a text by itself. -/
theorem Scans.alone (h : Scans p cs ts q rest) : ∀ t ∈ ts, Lexes t.text.toList [t.lexeme] := by
  induction h with
  | done => simp
  | blank _ _ ih => exact ih
  | @token p c cs t ts q rest hc ht _ ih =>
    refine List.forall_mem_cons.2 ⟨?_, ih⟩
    rw [(read_eq_ok ht).1, String.toList_ofList]
    have hl := lexes_singleton hc (List.all_eq_true.1 List.all_takeWhile) (read_congr ht 0)
    exact hl

/-- A number goes on with digits. -/
theorem continuesToken_of_isDigit {d : Char} (hc : isDigit c = true) (hd : isDigit d = true) :
    continuesToken c d = true := by simp [continuesToken, continuesNumeral, hc, hd]

/-- A natural number that can be written is read back. -/
theorem lexes_natDigits (h : (Number.int k).isWritable = true) :
    Lexes (Decimal.natDigits k) [.number (.int k)] := by
  have hd : ∀ c ∈ Decimal.natDigits k, isDigit c = true := fun _ => isDigit_of_mem_natDigits
  have hn : Decimal.natDigits k ≠ [] := by
    rw [Decimal.natDigits_eq]
    exact Nat.toDigits_ne_nil
  have hr := read?_natDigits h
  obtain ⟨c, cs, hcs⟩ := List.exists_cons_of_ne_nil hn
  rw [hcs] at hd hr ⊢
  obtain ⟨hc, hd⟩ := List.forall_mem_cons.1 hd
  have ht : Token.read 0 c cs = .ok ⟨String.ofList (c :: cs), 0, .number (.int k)⟩ := by
    simp only [Token.read, hc, if_true, hr]
    rfl
  exact lexes_singleton (isBlank_eq_false_of_isDigit hc)
    (fun d hm => continuesToken_of_isDigit hc (hd d hm)) ht

end

/-! ## Printed trees -/

namespace Expr

mutual

/-- The tokens that a tree is written with, each node at its own spot. -/
def printed : Expr → List Token
  | literal n p => [⟨n.text, p, .number n⟩]
  | .var x p => [⟨x, p, .name x⟩]
  | unary op e p => inParens (⟨op, p, .operator op⟩ :: printed e)
  | binary op l r p => inParens (printed l ++ ⟨op, p, .operator op⟩ :: printed r)
  | call f args p => ⟨f, p, .name f⟩ :: inParens (printedAll args)

/-- The tokens that several trees are written with, commas between. -/
def printedAll : List Expr → List Token
  | [] => []
  | [e] => printed e
  | e :: e' :: es => printed e ++ ⟨",", 0, .comma⟩ :: printedAll (e' :: es)

end

mutual

/-- How deep a tree nests when it is written: a level for the parentheses round each operation, and
    one more in the operand of a minus, in an exponent and among arguments. -/
def depth : Expr → Nat
  | literal _ _ | .var _ _ => 0
  | unary _ e _ => depth e + 2
  | binary op l r _ => max (depth l) (if op = "^" then depth r + 1 else depth r) + 1
  | call _ args _ => depthAll args

/-- How deep arguments nest, none if there are none. -/
def depthAll : List Expr → Nat
  | [] => 0
  | e :: es => max (depth e + 1) (depthAll es)

end

/-- A node that is read back from its own text, if it is a number or a name. -/
def ReadsBack : Expr → Prop
  | literal n _ => Lexes n.text.toList [.number n]
  | .var x _ | call x _ _ => Lexes x.toList [.name x]
  | unary .. | binary .. => True

/-- Every float in a tree is read back from the text that it is written as: as one number, and the
    same. -/
def FloatsReadBack (t : Expr) : Prop :=
  ∀ x q, literal (.float x) q ∈ t.subtrees →
    ∃ w, Token.scan (Binary64.text x) = .ok [w] ∧ w.lexeme = .number (.float x)

section
variable {m d : Nat} {t : Expr} {ts : List Token} {op text : String}

/-! ## What the tokens mean -/

theorem forms_parens (hd : d < m) (h : Forms m .sum (d + 1) ts t) :
    Forms m .primary d (inParens ts) t := .parens rfl hd h rfl

theorem opposite_of_printed {e : Expr} {q : Int} (hd : d < m)
    (h : Forms m .negation (d + 1) ts e) :
    Forms m .sum d (⟨"-", q, .operator "-"⟩ :: ts) (unary "-" e q) :=
  .sum (.product (.power (.opposite (t := ⟨"-", q, .operator "-"⟩) rfl hd h)))

/-- Operands with a known sign between are a sum, if the exponent of a power is a level deeper. -/
theorem operation_of_printed {us vs : List Token} {l r : Expr} {q : Int}
    (hop : op ∈ Operator.all.map Operator.glyph) (hl : Forms m .primary d us l)
    (hr : op ≠ "^" → Forms m .primary d vs r)
    (hr' : op = "^" → d < m ∧ Forms m .primary (d + 1) vs r) :
    Forms m .sum d (us ++ ⟨op, q, .operator op⟩ :: vs) (binary op l r q) := by
  simp only [Operator.all, Operator.glyph, List.map_cons, List.map_nil, List.mem_cons,
    List.not_mem_nil, or_false] at hop
  rcases hop with rfl | rfl | rfl | rfl | rfl | rfl
  · exact .addition (t := ⟨_, q, _⟩) hl.ofPrimary rfl (hr (by decide)).ofPrimary
  · exact .addition (t := ⟨_, q, _⟩) hl.ofPrimary rfl (hr (by decide)).ofPrimary
  · exact .sum (.multiplication (t := ⟨_, q, _⟩) hl.ofPrimary rfl (hr (by decide)).ofPrimary)
  · exact .sum (.multiplication (t := ⟨_, q, _⟩) hl.ofPrimary rfl (hr (by decide)).ofPrimary)
  · exact .sum (.multiplication (t := ⟨_, q, _⟩) hl.ofPrimary rfl (hr (by decide)).ofPrimary)
  · obtain ⟨hd, hr⟩ := hr' rfl
    exact .sum (.product (.exponentiation (t := ⟨_, q, _⟩) hl.ofPrimary rfl hd hr.ofPrimary))

mutual

/-- **The tokens that a tree is written with mean the tree**, wherever as many levels are left. -/
theorem forms_printed : ∀ {t : Expr} {d : Nat}, (∀ u ∈ t.subtrees, u.Known) → d + t.depth ≤ m →
    Forms m .primary d (printed t) t
  | literal n q, d, _, _ => by
    rw [printed]
    exact .number (t := ⟨_, q, _⟩) rfl
  | .var x q, d, _, _ => by
    rw [printed]
    exact .name (t := ⟨_, q, _⟩) rfl
  | unary op e q, d, hk, hd => by
    rw [subtrees, List.forall_mem_cons] at hk
    obtain ⟨rfl, hk⟩ := hk
    rw [depth] at hd
    rw [printed]
    exact forms_parens (by omega)
      (opposite_of_printed (by omega) (.negation (forms_printed hk (by omega))))
  | binary op l r q, d, hk, hd => by
    rw [subtrees, List.forall_mem_cons, List.forall_mem_append] at hk
    obtain ⟨hop, hl, hr⟩ := hk
    rw [depth] at hd
    rw [printed]
    refine forms_parens (by omega) (operation_of_printed hop ?_ (fun hne => ?_) fun heq => ?_)
    · exact forms_printed hl (by omega)
    · rw [if_neg hne] at hd
      exact forms_printed hr (by omega)
    · rw [if_pos heq] at hd
      exact ⟨by omega, forms_printed hr (by omega)⟩
  | call f [] q, d, _, _ => by
    rw [printed, printedAll]
    exact .bareCall (f := ⟨_, q, _⟩) rfl rfl rfl
  | call f (e :: es) q, d, hk, hd => by
    rw [subtrees, List.forall_mem_cons] at hk
    rw [depth] at hd
    have hlevel : 0 < depthAll (e :: es) := by
      rw [depthAll]
      omega
    rw [printed]
    exact .call (f := ⟨_, q, _⟩) rfl rfl (by omega)
      (formsAll_printed (List.cons_ne_nil _ _) hk.2 (by omega)) rfl

theorem formsAll_printed : ∀ {es : List Expr} {d : Nat}, es ≠ [] →
    (∀ u ∈ subtreesAll es, u.Known) → d + depthAll es ≤ m + 1 → FormsAll m d (printedAll es) es
  | [], _, hne, _, _ => absurd rfl hne
  | [e], d, _, hk, hd => by
    rw [subtreesAll, List.forall_mem_append] at hk
    rw [depthAll] at hd
    rw [printedAll]
    exact .one (forms_printed hk.1 (by omega)).ofPrimary
  | e :: e' :: es, d, _, hk, hd => by
    rw [subtreesAll, List.forall_mem_append] at hk
    rw [depthAll] at hd
    rw [printedAll]
    exact .more (forms_printed hk.1 (by omega)).ofPrimary rfl
      (formsAll_printed (List.cons_ne_nil _ _) hk.2 (by omega))

end

/-! ## The tokens of the text -/

theorem map_lexeme_inParens : (inParens ts).map Token.lexeme =
    .opening :: (ts.map Token.lexeme ++ [.closing]) := by
  simp [inParens]

theorem lexes_operator (hop : op ∈ Operator.all.map Operator.glyph) :
    Lexes op.toList [.operator op] := by
  have hall : ∀ g ∈ Operator.all.map Operator.glyph,
      ∃ e ∈ signs, g.toList = [e.1] ∧ e.2 = .operator g := by
    decide
  obtain ⟨⟨c, l⟩, hs, hc, rfl⟩ := hall op hop
  rw [hc]
  exact .sign hs lexes_nil

mutual

/-- **The text of a tree is scanned as the tokens that it is written with**, if each of its numbers
    and names is. -/
theorem lexes_render : ∀ {t : Expr}, (∀ u ∈ t.subtrees, u.Known) → (∀ u ∈ t.subtrees, u.ReadsBack) →
    Lexes t.render.toList (t.printed.map Token.lexeme)
  | literal n p, _, hr | .var x p, _, hr => hr _ (mem_subtrees_self _)
  | unary op e p, hk, hr => by
    rw [subtrees, List.forall_mem_cons] at hk hr
    obtain ⟨rfl, hk⟩ := hk
    have he : Lexes ('-' :: e.render.toList) (.operator "-" :: e.printed.map Token.lexeme) :=
      .sign (by simp [signs]) (lexes_render hk hr.2)
    have htext : (unary "-" e p).render.toList = '(' :: ('-' :: e.render.toList ++ [')']) := by
      simp [render]
    rw [htext, printed, map_lexeme_inParens]
    exact he.parens
  | binary op l r p, hk, hr => by
    rw [subtrees, List.forall_mem_cons, List.forall_mem_append] at hk hr
    have hl := lexes_render hk.2.1 hr.2.1
    have he := hl.append_blank isBlank_space
      ((lexes_operator hk.1).append_blank isBlank_space (lexes_render hk.2.2 hr.2.2))
    have htext : (binary op l r p).render.toList =
        '(' :: (l.render.toList ++ ' ' :: (op.toList ++ ' ' :: r.render.toList) ++ [')']) := by
      simp [render]
    rw [htext, printed, map_lexeme_inParens, List.map_append]
    exact he.parens
  | call f args p, hk, hr => by
    rw [subtrees, List.forall_mem_cons] at hk hr
    have hf : Lexes f.toList [.name f] := hr.1
    have htext : (call f args p).render.toList =
        f.toList ++ '(' :: ((", ".intercalate (renderAll args)).toList ++ [')']) := by
      simp [render]
    rw [htext, printed, List.map_cons, map_lexeme_inParens, ← List.singleton_append]
    exact hf.append_sign (by simp [signs]) (lexes_renderAll hk.2 hr.2).close

theorem lexes_renderAll : ∀ {es : List Expr}, (∀ u ∈ subtreesAll es, u.Known) →
    (∀ u ∈ subtreesAll es, u.ReadsBack) →
    Lexes (", ".intercalate (renderAll es)).toList ((printedAll es).map Token.lexeme)
  | [], _, _ => lexes_nil
  | [e], hk, hr => by
    rw [subtreesAll, List.forall_mem_append] at hk hr
    have htext : (", ".intercalate (renderAll [e])).toList = e.render.toList := by
      simp [renderAll]
    rw [htext, printedAll]
    exact lexes_render hk.1 hr.1
  | e :: e' :: es, hk, hr => by
    rw [subtreesAll, List.forall_mem_append] at hk hr
    have htext : (", ".intercalate (renderAll (e :: e' :: es))).toList =
        e.render.toList ++ ',' :: ' ' :: (", ".intercalate (renderAll (e' :: es))).toList := by
      simp [renderAll]
    have hes := lexes_renderAll hk.2 hr.2
    rw [htext, printedAll, List.map_append, List.map_cons]
    exact (lexes_render hk.1 hr.1).append_sign (by simp [signs]) (hes.blank isBlank_space)

end

/-! ## Reading back -/

/-- The numbers and names of a text are read back, if its floats are. -/
theorem readsBack_of_parseText (h : parseText text = .ok t) (hf : t.FloatsReadBack) :
    ∀ u ∈ t.subtrees, u.ReadsBack := by
  obtain ⟨ts, hs, ht⟩ := parseText_eq_ok.1 h
  obtain ⟨q, hq⟩ := scanFrom_eq_ok.1 hs
  have hname : ∀ x w, w ∈ ts → w.lexeme = .name x → (Lexeme.name x).Means w.text.toList →
      Lexes x.toList [.name x] := by
    intro x w hw hl hm
    have ha := hq.alone w hw
    rw [hl] at ha
    generalize w.text.toList = cs at ha hm
    cases hm with
    | name => rwa [String.toList_ofList]
    | sign hs => simp [signs] at hs
  intro u hu
  cases u with
  | literal n p =>
    cases n with
    | int i =>
      obtain ⟨k, rfl, hk⟩ := natural_of_parseText h hu
      have htext : (Number.int k).text.toList = Decimal.natDigits k := by
        simp [Number.text, Decimal.intText, Decimal.intDigits]
      rw [ReadsBack, htext]
      exact lexes_natDigits hk
    | float x =>
      obtain ⟨w, hw, hl⟩ := hf x p hu
      obtain ⟨q, hq⟩ := scanFrom_eq_ok.1 hw
      exact ⟨[w], q, hq, by rw [List.map_singleton, hl]⟩
  | var x p =>
    obtain ⟨w, hw, hl, hm⟩ := exists_token hs ht hu (List.mem_singleton_self _)
    exact hname x w hw hl hm
  | call f args p =>
    obtain ⟨w, hw, hl, hm⟩ := exists_token hs ht hu (List.mem_cons_self ..)
    exact hname f w hw hl hm
  | unary | binary => trivial

/-- **The tree of a text is read back from its own text.**  Let every float in the tree be read back
    from the text that it is written as, and let the text of the tree not nest too deep.  Then the
    tree can be written, its text is accepted as the same tree, spots aside, and comes in every
    scope to what the first text comes to: the same number, or the same failure apart from its
    position. -/
theorem parseText_render (h : parseText text = .ok t) (hf : t.FloatsReadBack)
    (hd : t.depth ≤ maxDepth) :
    t.write = .ok t.render ∧ ∃ t', parseText t.render = .ok t' ∧ t'.unspotted = t.unspotted ∧
      ∀ s, (outcome s t.render).mapError Failure.unplaced =
        (outcome s text).mapError Failure.unplaced := by
  have hk : ∀ u ∈ t.subtrees, u.Known := known_of_parseText h
  have hp : parse t.printed = .ok t :=
    parse_eq_ok_iff_forms.2 (forms_printed hk (by omega)).ofPrimary
  obtain ⟨ts, q, hq, hl⟩ := lexes_render hk (readsBack_of_parseText h hf)
  obtain ⟨t', ht', hs⟩ := parse_relay hp hl
  have hr : parseText t.render = .ok t' := parseText_eq_ok.2 ⟨ts, scanFrom_eq_ok.2 ⟨q, hq⟩, ht'⟩
  refine ⟨write_of_parseText h, t', hr, hs, fun s => ?_⟩
  rw [outcome_eq, outcome_eq, hr, h]
  exact answer_congr_unspotted hs

/-- A call with a power of a negative number. -/
theorem parseText_render_call :
    let half : Float := Binary64.ofDecimal 5 (-1)
    let t : Expr := .call "f" [.var "x" 2, .binary "^" (.unary "-" (.literal (.int 2) 6) 5)
      (.literal (.float half) 10) 8] 0
    parseText "f(x, -2 ^ 0.5)" = .ok t ∧ t.render = "f(x, ((-2) ^ 0.5))" ∧
      t.FloatsReadBack ∧ t.depth ≤ maxDepth ∧
      t.write = .ok t.render ∧ ∃ t', parseText t.render = .ok t' ∧ t'.unspotted = t.unspotted ∧
        ∀ s, (outcome s t.render).mapError Failure.unplaced =
          (outcome s "f(x, -2 ^ 0.5)").mapError Failure.unplaced := by
  intro half t
  have hs : Token.scan "f(x, -2 ^ 0.5)" = .ok [⟨"f", 0, .name "f"⟩, ⟨"(", 1, .opening⟩,
      ⟨"x", 2, .name "x"⟩, ⟨",", 3, .comma⟩, ⟨"-", 5, .operator "-"⟩, ⟨"2", 6, .number (.int 2)⟩,
      ⟨"^", 8, .operator "^"⟩, ⟨"0.5", 10, .number (.float half)⟩, ⟨")", 13, .closing⟩] := by
    decide +kernel
  have hx : Forms maxDepth .sum 1 [⟨"x", 2, .name "x"⟩] (.var "x" 2) :=
    Forms.ofPrimary (.name (t := ⟨"x", 2, .name "x"⟩) rfl)
  have hp : Forms maxDepth .power 1
      [⟨"-", 5, .operator "-"⟩, ⟨"2", 6, .number (.int 2)⟩, ⟨"^", 8, .operator "^"⟩,
        ⟨"0.5", 10, .number (.float half)⟩]
      (.binary "^" (.unary "-" (.literal (.int 2) 6) 5) (.literal (.float half) 10) 8) :=
    .exponentiation (t := ⟨"^", 8, .operator "^"⟩)
      (.opposite (t := ⟨"-", 5, .operator "-"⟩) rfl (by decide)
        (.negation (.number (t := ⟨"2", 6, .number (.int 2)⟩) rfl))) rfl (by decide)
      (.power (.negation (.number (t := ⟨"0.5", 10, .number (.float half)⟩) rfl)))
  have hc : Forms maxDepth .primary 0 _ t :=
    .call (f := ⟨"f", 0, .name "f"⟩) (o := ⟨"(", 1, .opening⟩) (c := ⟨")", 13, .closing⟩) rfl rfl
      (by decide) (.more (c := ⟨",", 3, .comma⟩) hx rfl (.one (.sum (.product hp)))) rfl
  have h : parseText "f(x, -2 ^ 0.5)" = .ok t :=
    parseText_eq_ok.2 ⟨_, hs, parse_eq_ok_iff_forms.2 hc.ofPrimary⟩
  have hf : t.FloatsReadBack := by
    intro x q hm
    have hm : x = half ∧ q = 10 := by simpa [t, subtrees, subtreesAll] using hm
    rw [hm.1]
    exact ⟨⟨"0.5", 0, .number (.float half)⟩, by decide +kernel, rfl⟩
  have hd : t.depth ≤ maxDepth := by decide
  exact ⟨h, by decide +kernel, hf, hd, parseText_render h hf hd⟩

end

end Expr

end Reckon
