/-
  The cursor and the nesting level while tokens are read.

  Whatever a procedure reads, the cursor only moves on, and the nesting level is that of the calls
  that are active.  A procedure that is entered again inside of itself, and a loop that goes round
  again, is further on than before, so that the machine comes to an end.

  * `Procedure.rank`: a procedure that has not moved on enters only those of lower rank;
  * `Sound`: what holds of every configuration on the way; `sound_step`: a step;
    `sound_of_reaches`: a run;
  * `progress_of_procedure`: how procedures move the cursor and the level, and how they end.
-/
import Reckon.Proofs.Stepping

namespace Reckon.Reader

open Reckon.Expr (Phrase Chain)

/-! ## Soundness -/

/-- How many procedures stand between a procedure and a token. -/
def Procedure.rank : Procedure → Nat
  | .phrase .sum => 5
  | .phrase .product => 4
  | .phrase .power => 3
  | .phrase .negation => 2
  | .phrase .primary => 1
  | .arguments => 0

/-- The nesting levels that active calls have gone down. -/
def levels (as : List Call) : Nat := as.countP (·.wait.nests)

/-- A cursor is further on than a call was at any of its rounds. -/
def Call.Behind (a : Call) (j : Nat) : Prop := ∀ m ∈ a.marks, m < j

/-- A procedure that is entered at a cursor is further on than a call, or of lower rank. -/
def Call.Admits (a : Call) (j : Nat) (q : Procedure) : Prop :=
  ∀ m ∈ a.marks, m < j ∨ m = j ∧ q.rank < a.wait.procedure.rank

/-- Active calls at a cursor and a level, if the first of them began at the cursor `i` and the
    level `d`: the level is as many deeper as they have gone down, and the cursor has moved on
    between the rounds of each. -/
structure Standing (ts : List Token) (i d j n : Nat) (as : List Call) : Prop where
  le_cursor : i ≤ j
  cursor_le : j ≤ ts.length
  level : n = d + levels as
  level_le : n ≤ maxDepth
  marks : ∀ a ∈ as, a.marks.Pairwise (· > ·)

/-- What holds of every configuration on the way. -/
inductive Sound (ts : List Token) (i d : Nat) : Config → Prop
  | enter {j n as q} : Standing ts i d j n as → (∀ a ∈ as, a.Admits j q) →
      Sound ts i d ⟨j, n, as, .enter q⟩
  | tree {j n as e} : Standing ts i d j n as → i < j → (∀ a ∈ as, a.Behind j) →
      Sound ts i d ⟨j, n, as, .tree e⟩
  | trees {j n as es} : Standing ts i d j n as → i < j → (∀ a ∈ as, a.Behind j) →
      Sound ts i d ⟨j, n, as, .trees es⟩
  /-- Of the levels there may be one too many. -/
  | error {j n as x} : j ≤ ts.length → n ≤ maxDepth + 1 → (∀ a ∈ as, a.marks.Pairwise (· > ·)) →
      Sound ts i d ⟨j, n, as, .error x⟩

section
variable {ts : List Token} {i d j k n : Nat} {as : List Call} {a : Call} {q q' : Procedure}
  {c c' : Config} {t o : Token} {w : Wait} {marks : List Nat} {x : Error} {e : Expr}

/-! ## Calls -/

theorem Call.Behind.admits (h : a.Behind j) (hk : j ≤ k) : a.Admits k q := fun m hm =>
  .inl (Nat.lt_of_lt_of_le (h m hm) hk)

/-- A procedure of lower rank is entered at the same cursor. -/
theorem Call.Admits.of_rank (h : a.Admits j q) (hq : q'.rank < q.rank) : a.Admits j q' :=
  fun m hm => (h m hm).imp id fun ⟨he, hr⟩ => ⟨he, Nat.lt_trans hq hr⟩

/-- Past a token the cursor is further on than all calls. -/
theorem Call.Admits.behind (h : a.Admits j q) : a.Behind (j + 1) := by
  intro m hm
  rcases h m hm with h | ⟨rfl, -⟩ <;> omega

theorem Call.Behind.mono (h : a.Behind j) (hk : j ≤ k) : a.Behind k := fun m hm =>
  Nat.lt_of_lt_of_le (h m hm) hk

theorem levels_cons : levels (a :: as) = levels as + if a.wait.nests then 1 else 0 :=
  List.countP_cons

theorem Standing.error (h : Standing ts i d j n as) : Sound ts i d ⟨j, n, as, .error x⟩ :=
  .error h.cursor_le (Nat.le_succ_of_le h.level_le) h.marks

/-- The cursor moves on to a token that is there. -/
theorem Standing.move (h : Standing ts i d j n as) (hj : j ≤ k) (hk : k ≤ ts.length) :
    Standing ts i d k n as :=
  ⟨Nat.le_trans h.le_cursor hj, hk, h.level, h.level_le, h.marks⟩

/-- A call begins to wait for another at its own level. -/
theorem Standing.call (h : Standing ts i d j n as) (ha : a.wait.nests = false)
    (hm : a.marks.Pairwise (· > ·)) : Standing ts i d j n (a :: as) := by
  refine ⟨h.le_cursor, h.cursor_le, ?_, h.level_le, List.forall_mem_cons.2 ⟨hm, h.marks⟩⟩
  rw [levels_cons, ha, h.level]
  rfl

/-- A call begins to wait for another one level deeper, if there is such a level. -/
theorem Standing.descend (h : Standing ts i d j n as) (ha : a.wait.nests = true)
    (hm : a.marks.Pairwise (· > ·)) (hq : ∀ b ∈ a :: as, b.Admits j q) :
    Sound ts i d (Reader.descend t j n a as q) := by
  unfold Reader.descend
  split
  · exact .error h.cursor_le (Nat.succ_le_succ h.level_le) h.marks
  · rename_i hn
    refine .enter ⟨h.le_cursor, h.cursor_le, ?_, Nat.le_of_not_lt hn,
      List.forall_mem_cons.2 ⟨hm, h.marks⟩⟩ hq
    rw [levels_cons, ha, h.level]
    rfl

/-- A call that has waited at its own level returns. -/
theorem Standing.back (h : Standing ts i d j n (a :: as)) (ha : a.wait.nests = false) :
    Standing ts i d j n as := by
  refine ⟨h.le_cursor, h.cursor_le, ?_, h.level_le, (List.forall_mem_cons.1 h.marks).2⟩
  rw [h.level, levels_cons, ha]
  rfl

/-- A call that has waited one level deeper returns one level up. -/
theorem Standing.up (h : Standing ts i d j n (a :: as)) (ha : a.wait.nests = true) :
    Standing ts i d j (n - 1) as := by
  have hl : n = d + (levels as + 1) := by
    rw [h.level, levels_cons, ha]
    rfl
  have hn := h.level_le
  exact ⟨h.le_cursor, h.cursor_le, by omega, by omega, (List.forall_mem_cons.1 h.marks).2⟩

/-! ## Steps -/

/-- A call just begun admits procedures of lower rank. -/
theorem admits_begun (hq : q.rank < w.procedure.rank) : Call.Admits ⟨w, [j]⟩ j q := fun _ hm =>
  .inr ⟨List.mem_singleton.1 hm, hq⟩

theorem behind_begun : Call.Behind ⟨w, [j]⟩ (j + 1) := fun m hm => by
  rw [List.mem_singleton.1 hm]
  exact Nat.lt_succ_self j

/-- A call begins and enters a procedure of lower rank at its own level and cursor. -/
theorem Standing.begin (h : Standing ts i d j n as) (hw : w.nests = false)
    (ha : ∀ a ∈ as, a.Admits j w.procedure) (hq : q.rank < w.procedure.rank) :
    Sound ts i d ⟨j, n, ⟨w, [j]⟩ :: as, .enter q⟩ := by
  refine .enter (h.call hw (List.pairwise_singleton _ _)) ?_
  exact List.forall_mem_cons.2 ⟨admits_begun hq, fun a hm => (ha a hm).of_rank hq⟩

/-- A call begins with a token and enters a procedure one level deeper. -/
theorem Standing.begin_descend (h : Standing ts i d j n as) (hw : w.nests = true)
    (ha : ∀ a ∈ as, a.Admits j q) (ht : ts[j]? = some t) :
    Sound ts i d (Reader.descend t (j + 1) n ⟨w, [j]⟩ as q') := by
  refine (h.move (Nat.le_succ j) (lt_of_some ht)).descend hw (List.pairwise_singleton _ _) ?_
  refine List.forall_mem_cons.2 ⟨behind_begun.admits (Nat.le_refl _), fun a hm => ?_⟩
  exact (ha a hm).behind.admits (Nat.le_refl _)

/-- After a token a call returns. -/
theorem Standing.take (h : Standing ts i d j n as) (ha : ∀ a ∈ as, a.Admits j q)
    (ht : ts[j]? = some t) : Sound ts i d ⟨j + 1, n, as, .tree e⟩ :=
  .tree (h.move (Nat.le_succ j) (lt_of_some ht)) (Nat.lt_succ_of_le h.le_cursor)
    fun a hm => (ha a hm).behind

theorem exists_of_isAt {l : Lexeme} (h : isAt ts j l = true) :
    ∃ t, ts[j]? = some t ∧ t.lexeme = l := by
  simpa [isAt, Option.any_eq_true] using h

theorem exists_of_signAt {sign? : Token → Option String} {g : String}
    (h : signAt ts sign? j = some (t, g)) : ts[j]? = some t := by
  obtain ⟨u, hu, hg⟩ := Option.bind_eq_some_iff.1 h
  obtain ⟨g', -, he⟩ := Option.map_eq_some_iff.1 hg
  cases he
  exact hu

theorem sound_beginPrimary (h : Standing ts i d j n as)
    (ha : ∀ a ∈ as, a.Admits j (.phrase .primary)) (ht : ts[j]? = some t) :
    Sound ts i d (beginPrimary ts t j n as) := by
  unfold beginPrimary
  split
  · exact h.take ha ht
  · split
    · have hm := h.move (Nat.le_succ j) (lt_of_some ht)
      refine .enter (hm.call rfl (List.pairwise_singleton _ _)) ?_
      refine List.forall_mem_cons.2 ⟨behind_begun.admits (Nat.le_refl _), fun a hm => ?_⟩
      exact (ha a hm).behind.admits (Nat.le_refl _)
    · exact h.take ha ht
  · exact h.begin_descend rfl ha ht
  all_goals exact h.error

theorem sound_beginPhrase {p : Phrase} (h : Standing ts i d j n as)
    (ha : ∀ a ∈ as, a.Admits j (.phrase p)) : Sound ts i d (beginPhrase ts j n as p) := by
  cases p with
  | sum => exact h.begin rfl ha (by decide)
  | product => exact h.begin rfl ha (by decide)
  | power => exact h.begin rfl ha (by decide)
  | negation =>
    rw [beginPhrase]
    split
    · exact h.begin rfl ha (by decide)
    · rename_i t g hg
      exact h.begin_descend rfl ha (exists_of_signAt hg)
  | primary =>
    rw [beginPhrase]
    split
    · exact h.error
    · rename_i t ht
      exact sound_beginPrimary h ha ht

theorem sound_beginArguments (h : Standing ts i d j n as) (ha : ∀ a ∈ as, a.Admits j .arguments)
    (ho : ts[j]? = some o) : Sound ts i d (beginArguments ts o j n as) := by
  unfold beginArguments
  split
  · rename_i hc
    obtain ⟨t, ht, -⟩ := exists_of_isAt hc
    have := lt_of_some ht
    have hj := h.le_cursor
    refine .trees (h.move (by omega) (by omega)) (by omega) fun a hm => ?_
    exact (ha a hm).behind.mono (Nat.le_succ _)
  · exact h.begin_descend rfl ha ho

theorem sound_ascend {f : Focus} (h : Standing ts i d j n (a :: as)) (hw : a.wait.nests = true)
    (hi : i < j) (hb : ∀ a ∈ as, a.Behind j)
    (hf : ∀ {k m}, Standing ts i d k m as → i < k → (∀ a ∈ as, a.Behind k) →
      Sound ts i d ⟨k, m, as, f⟩) : Sound ts i d (ascend ts o j n as f) := by
  have hm := (List.forall_mem_cons.1 h.marks).2
  have hn := Nat.le_succ_of_le h.level_le
  unfold ascend
  split
  · exact .error h.cursor_le hn hm
  rename_i t ht
  split
  · refine hf ((h.up hw).move (Nat.le_succ j) (lt_of_some ht)) (Nat.lt_succ_of_lt hi) fun a ha => ?_
    exact (hb a ha).mono (Nat.le_succ j)
  · exact .error h.cursor_le hn hm

/-- A call goes round its loop: the cursor is further on than at the rounds before. -/
theorem sound_round {w w' : Wait} (h : Standing ts i d j n (⟨w, marks⟩ :: as))
    (ht : ts[j]? = some t) (hw : w'.nests = w.nests) (hb : ∀ a ∈ ⟨w, marks⟩ :: as, a.Behind j) :
    Sound ts i d ⟨j + 1, n, ⟨w', j :: marks⟩ :: as, .enter q⟩ := by
  obtain ⟨hb, hbs⟩ := List.forall_mem_cons.1 hb
  obtain ⟨hm, hms⟩ := List.forall_mem_cons.1 h.marks
  refine .enter ⟨Nat.le_succ_of_le h.le_cursor, lt_of_some ht, ?_, h.level_le, ?_⟩ ?_
  · rw [h.level, levels_cons, levels_cons, hw]
  · exact List.forall_mem_cons.2 ⟨List.pairwise_cons.2 ⟨hb, hm⟩, hms⟩
  · refine List.forall_mem_cons.2
      ⟨fun m hm => .inl ?_, fun a ha => (hbs a ha).admits (Nat.le_succ j)⟩
    rcases List.mem_cons.1 hm with rfl | hm
    · exact Nat.lt_succ_self m
    · exact Nat.lt_succ_of_lt (hb m hm)

theorem sound_resume (h : Standing ts i d j n (⟨w, marks⟩ :: as)) (hi : i < j)
    (hb : ∀ a ∈ ⟨w, marks⟩ :: as, a.Behind j) (hr : resume ts j n marks as e w = some c) :
    Sound ts i d c := by
  obtain ⟨hb', hbs⟩ := List.forall_mem_cons.1 hb
  cases w with
  | chain k before =>
    rw [resume] at hr
    split at hr <;> cases hr
    · exact .tree (h.back rfl) hi hbs
    · rename_i t g hg
      exact sound_round h (exists_of_signAt hg) rfl hb
  | base =>
    rw [resume] at hr
    split at hr <;> cases hr
    · exact .tree (h.back rfl) hi hbs
    · rename_i t g hg
      have ht := lt_of_some (exists_of_signAt hg)
      have hm := (h.back rfl).move (Nat.le_succ j) ht
      refine hm.descend rfl (List.forall_mem_cons.1 h.marks).1 ?_
      exact List.forall_mem_cons.2
        ⟨hb'.admits (Nat.le_succ j), fun a ha => (hbs a ha).admits (Nat.le_succ j)⟩
  | exponent | operand =>
    cases hr
    exact .tree (h.up rfl) hi hbs
  | primary =>
    cases hr
    exact .tree (h.back rfl) hi hbs
  | inner o =>
    cases hr
    exact sound_ascend h rfl hi hbs .tree
  | arguments => cases hr
  | argument o before =>
    rw [resume] at hr
    split at hr <;> cases hr
    · rename_i hc
      obtain ⟨t, ht, -⟩ := exists_of_isAt hc
      exact sound_round h ht rfl hb
    · exact sound_ascend h rfl hi hbs .trees

/-- **A step** keeps a configuration sound. -/
theorem sound_step (h : Sound ts i d c) (hs : step ts c = some c') : Sound ts i d c' := by
  cases h with
  | enter h ha =>
    rename_i j n as q
    cases q with
    | phrase p =>
      cases hs
      exact sound_beginPhrase h ha
    | arguments =>
      obtain ⟨o, ho, rfl⟩ := Option.map_eq_some_iff.1 hs
      exact sound_beginArguments h ha ho
  | tree h hi hb =>
    rename_i j n as e
    rcases as with _ | ⟨⟨w, marks⟩, as⟩
    · cases hs
    · exact sound_resume h hi hb hs
  | trees h hi hb =>
    rename_i j n as es
    rcases as with _ | ⟨⟨w, marks⟩, as⟩
    · cases hs
    · cases w <;> cases hs
      exact .tree (h.back rfl) hi (List.forall_mem_cons.1 hb).2
  | error => cases hs

/-- **A run** keeps a configuration sound. -/
theorem sound_of_reaches (h : Sound ts i d c) (hr : Reaches ts c c') : Sound ts i d c' := by
  induction hr with
  | refl => exact h
  | tail _ hs ih => exact sound_step ih hs

/-! ## Runs -/

/-- What has been entered with no call active, at a cursor and a level. -/
def begun (i d : Nat) (q : Procedure) : Config := ⟨i, d, [], .enter q⟩

/-- How the machine finishes what it has begun: it returns at the level where it began, and further
    on, or it stops with an error. -/
def Finishes (ts : List Token) (i d : Nat) (q : Procedure) :
    Except Error (Focus × List Token) → Prop
  | .ok (f, rest) => ∃ j, i < j ∧ j ≤ ts.length ∧ ts.drop j = rest ∧
      Reaches ts (begun i d q) ⟨j, d, [], f⟩ ∧ step ts ⟨j, d, [], f⟩ = none
  | .error x => ∃ c, Reaches ts (begun i d q) c ∧ c.focus = .error x ∧ step ts c = none

/-- A configuration that a run may pass: its cursor is at a token or at the end, its level is at
    most one too deep, a procedure that is entered is further on than all active calls of itself,
    and each call is further on at each round than before. -/
structure Passes (ts : List Token) (c : Config) : Prop where
  cursor_le : c.cursor ≤ ts.length
  depth_le : c.depth ≤ maxDepth + 1
  entered : ∀ q, c.focus = .enter q → ∀ a ∈ c.calls, a.wait.procedure = q → ∀ m ∈ a.marks,
    m < c.cursor
  rounds : ∀ a ∈ c.calls, a.marks.Pairwise (· > ·)

theorem Sound.passes (h : Sound ts i d c) : Passes ts c := by
  cases h with
  | enter h ha =>
    refine ⟨h.cursor_le, Nat.le_succ_of_le h.level_le, fun q hq a hm ht m hk => ?_, h.marks⟩
    cases hq
    rcases ha a hm m hk with hlt | ⟨-, hr⟩
    · exact hlt
    · rw [ht] at hr
      exact absurd hr (Nat.lt_irrefl _)
  | tree h | trees h => exact ⟨h.cursor_le, Nat.le_succ_of_le h.level_le, nofun, h.marks⟩
  | error hj hn hm => exact ⟨hj, hn, nofun, hm⟩

theorem sound_begun (hi : i ≤ ts.length) (hd : d ≤ maxDepth) : Sound ts i d (begun i d q) :=
  .enter ⟨Nat.le_refl i, hi, rfl, hd, nofun⟩ nofun

/-- A reader returns a tree or trees. -/
theorem Reads.returned {f : Focus} {rest : List Token} (h : Reads ts i d q (.ok (f, rest))) :
    (∃ e, f = .tree e) ∨ ∃ es, f = .trees es := by
  generalize hr : Except.ok (f, rest) = r at h
  cases h with
  | phrase p =>
    obtain ⟨e, -, he⟩ := Expr.map_eq_ok.1 hr.symm
    cases he
    exact .inl ⟨_, rfl⟩
  | arguments =>
    obtain ⟨e, -, he⟩ := Expr.map_eq_ok.1 hr.symm
    cases he
    exact .inr ⟨_, rfl⟩

theorem step_of_error (h : c.focus = .error x) : step ts c = none := by
  obtain ⟨j, n, as, f⟩ := c
  cases h
  rfl

/-- What the machine has begun it finishes with what the reader yields. -/
theorem Reads.finishes {r : Except Error (Focus × List Token)} (h : Reads ts i d q r)
    (hi : i ≤ ts.length) (hd : d ≤ maxDepth) : Finishes ts i d q r := by
  have he := ends_of_reads h []
  rcases r with x | ⟨f, rest⟩
  · obtain ⟨c, hc, hx⟩ := he
    exact ⟨c, hc, hx, step_of_error hx⟩
  · obtain ⟨j, hj, hr, hc⟩ := he
    have hs := sound_of_reaches (sound_begun hi hd) hc
    rcases h.returned with ⟨e, rfl⟩ | ⟨es, rfl⟩
    · cases hs with | tree _ hij _ => exact ⟨j, hij, hj, hr, hc, rfl⟩
    · cases hs with | trees _ hij _ => exact ⟨j, hij, hj, hr, hc, rfl⟩

/-- Each procedure has a reader, that of arguments at an opening parenthesis. -/
theorem exists_reads (hq : q = .arguments → isAt ts i .opening = true) : ∃ r, Reads ts i d q r := by
  cases q with
  | phrase p => exact ⟨_, .phrase p⟩
  | arguments =>
    obtain ⟨o, ho, hl⟩ := exists_of_isAt (hq rfl)
    exact ⟨_, .arguments ho hl⟩

/-- **Progress and balance.**  Wherever a procedure begins to read, arguments at an opening
    parenthesis, the machine comes to an end with what the reader yields: it returns further on and
    at the level where it began, or stops with an error.  On the way the cursor stays within the
    tokens and the level within one of the deepest, and a procedure that is entered inside of
    itself, and a loop that goes round again, is further on than before. -/
theorem progress_of_procedure (hi : i ≤ ts.length) (hd : d ≤ maxDepth)
    (hq : q = .arguments → isAt ts i .opening = true) :
    (∃ r, Reads ts i d q r ∧ Finishes ts i d q r) ∧
      ∀ c, Reaches ts (begun i d q) c → Passes ts c := by
  obtain ⟨r, hr⟩ := exists_reads hq
  refine ⟨⟨r, hr, hr.finishes hi hd⟩, fun c hc => ?_⟩
  exact (sound_of_reaches (sound_begun hi hd) hc).passes

/-- The arguments of `f(x,-y)`. -/
theorem progress_of_procedure_arguments :
    let ts : List Token := [⟨"f", 0, .name "f"⟩, ⟨"(", 1, .opening⟩, ⟨"x", 2, .name "x"⟩,
      ⟨",", 3, .comma⟩, ⟨"-", 4, .operator "-"⟩, ⟨"y", 5, .name "y"⟩, ⟨")", 6, .closing⟩]
    1 ≤ ts.length ∧ 0 ≤ maxDepth ∧
      (Procedure.arguments = .arguments → isAt ts 1 .opening = true) ∧
      (∃ r, Reads ts 1 0 .arguments r ∧ Finishes ts 1 0 .arguments r) ∧
      ∀ c, Reaches ts (begun 1 0 .arguments) c → Passes ts c := by
  intro ts
  have hi : 1 ≤ ts.length := by decide
  have hd : 0 ≤ maxDepth := by decide
  have ho : Procedure.arguments = .arguments → isAt ts 1 .opening = true := fun _ => by decide
  exact ⟨hi, hd, ho, progress_of_procedure hi hd ho⟩

end

end Reckon.Reader
