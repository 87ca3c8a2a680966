/-
  Registries after any sequence of registrations.

  A caller registers variables and functions, one at a time or in chains.  A request that is refused
  changes nothing and ends its chain; what the chain has registered before it stays.

  * `Request`: what a caller asks of the registries; `Request.rejection?`: why it is refused;
  * `Registries.perform`, `Registries.chain`, `Registries.after`: one request, a chain up to the
    first request that is refused, chains one after another;
  * `perform_of_rejection`: a request that is refused changes nothing;
  * `granted`: the requests that were accepted; `latest`: what they have registered last under a
    name;
  * `Holds`: registries hold what was registered last; `holds_perform`: a step; `holds_chain`,
    `holds_after`: runs;
  * `registered_last_wins`: what variables and calls come to afterwards.
-/
import Reckon.Proofs.Answers

namespace Reckon

/-! ## Requests -/

/-- The variables and the functions that a caller registers. -/
structure Registries where
  definitions : Definitions
  functions : Functions

/-- What a caller asks of the registries; a variable is registered under either of two words. -/
inductive Request where
  | register (name value : PlainValue)
  | insert (name value : PlainValue)
  | offer (name : PlainValue) (thing : Offer)

namespace Request

/-- The variable that a request in order defines. -/
def definition? : Request → Option (String × Number)
  | register (.text x) (.number n) | insert (.text x) (.number n) => some (x, n)
  | _ => none

/-- The function that a request in order registers. -/
def function? : Request → Option (String × Callable)
  | offer (.text f) (.callable g) => some (f, g)
  | _ => none

/-- Why a request is refused: its name is no text, its value no number, its thing no function. -/
def rejection? : Request → Option Rejection
  | register (.text _) (.number _) | insert (.text _) (.number _) => none
  | offer (.text _) (.callable _) => none
  | register (.text _) v | insert (.text _) v => some (.notNumber v)
  | offer (.text _) (.plain v) => some (.notFunction v)
  | register name _ | insert name _ | offer name _ => some (.notName name)

/-- Whether a request is in order. -/
def isGranted (q : Request) : Bool := q.rejection?.isNone

end Request

namespace Registries

/-- What names mean with the registries. -/
def scope (r : Registries) : Scope := Scope.of (some r.definitions.plain) (some r.functions)

/-- Steps on the variables. -/
def onDefinitions (steps : Registering Definitions Unit) : Registering Registries Unit := do
  let r ← get
  let (result, d) := Registering.run r.definitions steps
  set { r with definitions := d }
  result

/-- Steps on the functions. -/
def onFunctions (steps : Registering Functions Unit) : Registering Registries Unit := do
  let r ← get
  let (result, fs) := Registering.run r.functions steps
  set { r with functions := fs }
  result

/-- The steps of a request. -/
def enter : Request → Registering Registries Unit
  | .register name value | .insert name value => onDefinitions (Definitions.enter name value)
  | .offer name thing => onFunctions (Functions.enter name thing)

/-- What a request comes to, and the registries after it. -/
def perform (r : Registries) (q : Request) : Except Rejection Unit × Registries :=
  Registering.run r (enter q)

/-- What a chain of requests comes to, of which the first that is refused is the last, and the
    registries after it. -/
def chain (r : Registries) (qs : List Request) : Except Rejection Unit × Registries :=
  Registering.run r (qs.forM enter)

/-- The registries after chains one after another. -/
def after (r : Registries) (chains : List (List Request)) : Registries :=
  chains.foldl (fun r qs => (r.chain qs).2) r

end Registries

/-- The requests in chains that are accepted: in each chain those before the first that is
    refused. -/
def granted (chains : List (List Request)) : List Request :=
  chains.flatMap (·.takeWhile Request.isGranted)

/-- What requests have registered last under a name. -/
def latest {α : Type} (bound? : Request → Option (String × α)) (name : String)
    (qs : List Request) : Option α :=
  (qs.filterMap bound?).reverse.lookup name

section
variable {α : Type} {bound? : Request → Option (String × α)} {name x f : String} {p : Int}
  {q : Request} {qs past : List Request} {e : Rejection} {r : Registries} {base : Functions}
  {args : List Expr} {s : Scope}

theorem latest_concat : latest bound? name (past ++ [q]) =
    match bound? q with
    | some (y, a) => if name = y then some a else latest bound? name past
    | none => latest bound? name past := by
  unfold latest
  rw [List.filterMap_append, List.reverse_append]
  rcases hq : bound? q with _ | ⟨y, a⟩
  · simp [hq]
  · by_cases h : name = y
    · simp [hq, h]
    · have hb : (name == y) = false := by simpa using h
      simp [hq, h, hb, List.lookup_cons]

/-! ## Steps -/

/-- The requests that are in order. -/
theorem Request.isGranted_iff : q.isGranted = true ↔
    (∃ x n, q = .register (.text x) (.number n) ∨ q = .insert (.text x) (.number n)) ∨
      ∃ f g, q = .offer (.text f) (.callable g) := by
  constructor
  · intro h
    cases q with
    | register name v => cases name <;> cases v <;> cases h; exact .inl ⟨_, _, .inl rfl⟩
    | insert name v => cases name <;> cases v <;> cases h; exact .inl ⟨_, _, .inr rfl⟩
    | offer name thing => cases name <;> cases thing <;> cases h; exact .inr ⟨_, _, rfl⟩
  · rintro (⟨x, n, rfl | rfl⟩ | ⟨f, g, rfl⟩) <;> rfl

/-- **A request that is refused changes nothing.** -/
theorem perform_of_rejection (h : q.rejection? = some e) : r.perform q = (.error e, r) := by
  cases q with
  | register name v | insert name v => cases name <;> cases v <;> cases h <;> rfl
  | offer name thing => cases name <;> cases thing <;> cases h <;> rfl

/-- A request is accepted iff it is in order. -/
theorem perform_eq_ok_iff : (r.perform q).1 = .ok () ↔ q.isGranted = true := by
  constructor
  · intro hr
    unfold Request.isGranted
    rcases he : q.rejection? with _ | e
    · rfl
    · rw [perform_of_rejection he] at hr
      cases hr
  · intro h
    rcases Request.isGranted_iff.1 h with ⟨x, n, rfl | rfl⟩ | ⟨f, g, rfl⟩ <;> rfl

/-- A chain goes on after a request that is accepted. -/
theorem chain_cons : r.chain (q :: qs) = match r.perform q with
    | (.ok _, r') => r'.chain qs
    | (.error e, r') => (.error e, r') := by
  have hq : (q :: qs).forM Registries.enter =
      Registries.enter q >>= fun _ => qs.forM Registries.enter := rfl
  rw [Registries.chain, hq, Registering.run_bind, Registries.perform]
  rcases Registering.run r (Registries.enter q) with ⟨e | a, r'⟩
  · rfl
  · rfl

/-- A chain ends at a request that is refused. -/
theorem chain_cons_of_rejection (he : q.rejection? = some e) :
    r.chain (q :: qs) = (.error e, r) := by
  rw [chain_cons, perform_of_rejection he]

/-! ## Runs -/

/-- Registries that hold what was registered last under each name, of functions else what they held
    at first. -/
structure Holds (base : Functions) (past : List Request) (r : Registries) : Prop where
  definitions : ∀ x, r.definitions.find? x = latest Request.definition? x past
  functions : ∀ f, r.functions.find? f = (latest Request.function? f past).or (base.find? f)

theorem holds_new (base : Functions) : Holds base [] ⟨.empty, base⟩ := ⟨fun _ => rfl, fun _ => rfl⟩

/-- A number is registered, and held from then on. -/
theorem Holds.insert_number {n : Number} (h : Holds base past r) (hn : q.definition? = some (x, n))
    (hf : q.function? = none) :
    Holds base (past ++ [q]) { r with definitions := r.definitions.insert x n } := by
  constructor
  case definitions =>
    intro y
    rw [latest_concat, hn, Registry.find?_insert, h.definitions]
  case functions =>
    intro f
    rw [latest_concat, hf]
    exact h.functions f

theorem Holds.insert_function {g : Callable} (h : Holds base past r) (hn : q.definition? = none)
    (hf : q.function? = some (f, g)) :
    Holds base (past ++ [q]) { r with functions := r.functions.insert f g } := by
  constructor
  case definitions =>
    intro x
    rw [latest_concat, hn]
    exact h.definitions x
  case functions =>
    intro y
    rw [latest_concat, hf, Registry.find?_insert, h.functions]
    by_cases hy : y = f
    · simp [hy]
    · simp [hy]

/-- **A step**: a request in order is accepted, and the registries hold what it registers. -/
theorem holds_perform (h : Holds base past r) (hq : q.isGranted = true) :
    ∃ r', r.perform q = (.ok (), r') ∧ Holds base (past ++ [q]) r' := by
  rcases Request.isGranted_iff.1 hq with ⟨x, n, rfl | rfl⟩ | ⟨f, g, rfl⟩
  · exact ⟨_, rfl, h.insert_number rfl rfl⟩
  · exact ⟨_, rfl, h.insert_number rfl rfl⟩
  · exact ⟨_, rfl, h.insert_function rfl rfl⟩

/-- A chain registers what comes before its first request that is refused. -/
theorem holds_chain (qs : List Request) : ∀ {past : List Request} {r : Registries},
    Holds base past r → Holds base (past ++ qs.takeWhile Request.isGranted) (r.chain qs).2 := by
  induction qs with
  | nil =>
    intro past r h
    rwa [List.takeWhile_nil, List.append_nil]
  | cons q qs ih =>
    intro past r h
    by_cases hq : q.isGranted = true
    · obtain ⟨r', hr, h'⟩ := holds_perform h hq
      rw [List.takeWhile_cons_of_pos hq, List.append_cons, chain_cons, hr]
      exact ih h'
    · obtain ⟨e, he⟩ : ∃ e, q.rejection? = some e := by
        simpa [Request.isGranted, Option.ne_none_iff_exists'] using hq
      rw [List.takeWhile_cons_of_neg hq, List.append_nil, chain_cons_of_rejection he]
      exact h

/-- **A run**: after chains one after another the registries hold what they have registered. -/
theorem holds_after (chains : List (List Request)) : ∀ {past : List Request} {r : Registries},
    Holds base past r → Holds base (past ++ granted chains) (r.after chains) := by
  induction chains with
  | nil =>
    intro past r h
    rwa [granted, List.flatMap_nil, List.append_nil]
  | cons qs chains ih =>
    intro past r h
    rw [granted, List.flatMap_cons, ← List.append_assoc]
    exact ih (holds_chain qs h)

/-- A request that is refused ends its chain, and the registries stay as they were before it. -/
theorem chain_of_rejection {links : List Request} (he : q.rejection? = some e) :
    ∀ {before : List Request} {r : Registries}, (∀ a ∈ before, a.isGranted = true) →
      r.chain (before ++ q :: links) = (.error e, (r.chain before).2)
  | [], r, _ => chain_cons_of_rejection he
  | a :: before, r, h => by
    obtain ⟨ha, h⟩ := List.forall_mem_cons.1 h
    have hr : r.perform a = (.ok (), (r.perform a).2) := Prod.ext (perform_eq_ok_iff.2 ha) rfl
    rw [List.cons_append, chain_cons, chain_cons, hr]
    exact chain_of_rejection he h

/-! ## Variables and calls -/

theorem Holds.value (h : Holds base past r) (x : String) : r.scope.value x =
    match latest Request.definition? x past with
    | some n => .ok n
    | none => .error (.error (.undefinedVariable x)) := by
  have hv : r.scope.value? x = (latest Request.definition? x past).map PlainValue.number := by
    rw [← h.definitions x]
    exact Registry.find?_map _ _ _
  unfold Scope.value
  rw [hv]
  cases latest Request.definition? x past <;> rfl

theorem Holds.callable (h : Holds base past r) (f : String) : r.scope.callable f =
    match (latest Request.function? f past).or (base.find? f) with
    | some g => .ok g
    | none => .error (.error (.undefinedFunction f)) := by
  have hv : r.scope.callable? f = (latest Request.function? f past).or (base.find? f) :=
    h.functions f
  unfold Scope.callable
  rw [hv]
  cases (latest Request.function? f past).or (base.find? f) <;> rfl

/-- Each standard function is found under its own name. -/
theorem Functions.find?_standard (f : String) : Functions.standard.find? f =
    (StandardFunction.all.find? (·.name = f)).map .standard := by
  unfold Functions.standard Registry.find?
  induction StandardFunction.all with
  | nil => rfl
  | cons k ks ih =>
    rw [List.map_cons, List.lookup_cons, ih]
    by_cases h : k.name = f
    · simp [h]
    · have hb : (f == k.name) = false := by simpa using Ne.symm h
      simp [h, hb]

theorem evaluate_var : (Expr.var x p).evaluate s = Evaluation.lift (s.value x) := by
  rw [Expr.evaluate_eq_denote, Expr.denote]

theorem evaluate_call : (Expr.call f args p).evaluate s = (do
    let g ← Evaluation.lift (s.callable f)
    let values ← Expr.evaluateAll s args
    runFunction f g values) := by
  rw [Expr.evaluate_eq_denote, Expr.denote, Expr.evaluateAll_eq]

/-- **The last registration wins.**  After every sequence of chains a variable comes to the number
    that was registered last under its name, and is undefined if there was none.  A call runs the
    function that was registered last under its name, else the one that was there at first, such as
    a standard function, and is undefined if there is neither.  Accepted are the requests that name
    a number or a function by a text.  One that is refused leaves all registries as they were; it
    ends its chain, and what the chain had registered before stays. -/
theorem registered_last_wins (base : Functions) (chains : List (List Request)) :
    let r := (⟨.empty, base⟩ : Registries).after chains
    let past := granted chains
    (∀ x p, (Expr.var x p).evaluate r.scope =
      Evaluation.lift (match latest Request.definition? x past with
        | some n => .ok n
        | none => .error (.error (.undefinedVariable x)))) ∧
    (∀ f args p, (Expr.call f args p).evaluate r.scope =
      match (latest Request.function? f past).or (base.find? f) with
      | some g => do
        let values ← Expr.evaluateAll r.scope args
        runFunction f g values
      | none => throw (.error (.undefinedFunction f))) ∧
    (∀ f, Functions.standard.find? f =
      (StandardFunction.all.find? (·.name = f)).map .standard) ∧
    (∀ q, (r.perform q).1 = .ok () ↔ q.isGranted = true) ∧
    (∀ q e, q.rejection? = some e → r.perform q = (.error e, r)) ∧
    ∀ before q links e, (∀ a ∈ before, a.isGranted = true) → q.rejection? = some e →
      r.chain (before ++ q :: links) = (.error e, (r.chain before).2) := by
  intro r past
  have h : Holds base past r := holds_after chains (holds_new base)
  refine ⟨fun x p => ?_, fun f args p => ?_, Functions.find?_standard, fun q => perform_eq_ok_iff,
    fun q e => perform_of_rejection, fun before q links e hb he => chain_of_rejection he hb⟩
  · rw [evaluate_var, h.value]
  · rw [evaluate_call, h.callable]
    cases (latest Request.function? f past).or (base.find? f) <;> rfl

/-- A variable registered anew in a chain, before a value that is no number and a variable that is
    not reached; a caller's function under the name of a standard one; a thing that is no
    function. -/
theorem registered_last_wins_chain :
    let first : Request := .register (.text "x") (.number (.int 1))
    let second : Request := .insert (.text "x") (.number (.int 2))
    let refused : Request := .insert (.text "y") (.flag true)
    let third : Request := .register (.text "x") (.number (.int 3))
    let seven : Request :=
      .offer (.text "sqrt") (.callable (.given fun _ => .ok (.number (.int 7))))
    let thing : Request := .offer (.text "sin") (.plain (.text "sin"))
    let r := (⟨.empty, .standard⟩ : Registries).after
      [[first, second, refused, third], [seven, thing]]
    (Expr.var "x" 0).evaluate r.scope = Evaluation.lift (.ok (.int 2)) ∧
    (Expr.var "y" 0).evaluate r.scope = Evaluation.lift (.error (.error (.undefinedVariable "y"))) ∧
    (Expr.call "sqrt" [] 0).evaluate r.scope = (do
      let values ← Expr.evaluateAll r.scope []
      runFunction "sqrt" (.given fun _ => .ok (.number (.int 7))) values) ∧
    (Expr.call "sin" [] 0).evaluate r.scope = (do
      let values ← Expr.evaluateAll r.scope []
      runFunction "sin" (.standard .sin) values) ∧
    (∀ a ∈ [first, second], a.isGranted = true) ∧
    refused.rejection? = some (.notNumber (.flag true)) ∧
    r.perform refused = (.error (.notNumber (.flag true)), r) ∧
    r.chain ([first, second] ++ refused :: [third]) =
      (.error (.notNumber (.flag true)), (r.chain [first, second]).2) := by
  intro first second refused third seven thing r
  have h := registered_last_wins .standard [[first, second, refused, third], [seven, thing]]
  have hb : ∀ a ∈ [first, second], a.isGranted = true := by
    simp only [List.mem_cons, List.not_mem_nil, or_false, forall_eq_or_imp, forall_eq]
    exact ⟨rfl, rfl⟩
  exact ⟨h.1 "x" 0, h.1 "y" 0, h.2.1 "sqrt" [] 0, h.2.1 "sin" [] 0, hb, rfl,
    h.2.2.2.2.1 refused _ rfl, h.2.2.2.2.2 [first, second] refused [third] _ hb rfl⟩

end

end Reckon
