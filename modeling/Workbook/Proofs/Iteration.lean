/-
Walking over arrays that change meanwhile.

A loop over an array runs its body for each item, and a method calls a function for each.  Either may do
to the array what it likes.  All these walks are one (`visitAll`): the items are fixed when it begins,
and they are visited one after another (`Visited`), until a visit decides or fails (`Outcome`).

So the items that are visited are those that the array has when the loop or the method begins, in
order and with their positions, and a walk ends if each of its visits does (`Walks`).  This holds for
every engine, whatever its calls do to the array (`walks_see_the_array_as_it_was`).
-/
import Workbook.Engine
import Workbook.Proofs.Simulation

namespace Workbook
namespace Iteration

/-! ## Visits -/

section

variable {α β γ : Type}

/-- How an item is visited: with what the visit before it has come to, and with its position. -/
abbrev Visit (α β : Type) : Type :=
  β → Nat → α → Run β

/-- Visits of items, one after another and from a position on, and what each comes to. -/
inductive Visited (visit : Visit α β) : β → Nat → List α → List β → Store → Store → Prop
  | nil {last : β} {i : Nat} {s : Store} : Visited visit last i [] [] s s
  | cons {last b : β} {i : Nat} {v : α} {vs : List α} {bs : List β} {s t u : Store}
    (h : visit last i v s = .ok b t) (rest : Visited visit b (i + 1) vs bs t u) :
    Visited visit last i (v :: vs) (b :: bs) s u

theorem Visited.length_eq {visit : Visit α β} {last : β} {i : Nat} {vs : List α} {bs : List β}
    {s t : Store} (h : Visited visit last i vs bs s t) : bs.length = vs.length := by
  induction h with
  | nil => rfl
  | cons _ _ ih => exact congrArg Nat.succ ih

/-- How a walk over items ends, and what it yields of what its visits came to: all items have been
visited and none has decided, or the last one visited has, or its visit fails. -/
inductive Outcome (visit : Visit α β) (decides : β → Bool) (first : β) (i : Nat) (items : List α)
    (s : Store) (yield : List β → Run γ) : EStateM.Result Stop Store γ → Prop
  | through {bs : List β} {t : Store} (h : Visited visit first i items bs s t)
    (undecided : ∀ b ∈ bs, decides b = false) :
    Outcome visit decides first i items s yield (yield bs t)
  | decided {before after : List α} {v : α} {bs : List β} {b : β} {t : Store}
    (split : items = before ++ v :: after)
    (h : Visited visit first i (before ++ [v]) (bs ++ [b]) s t)
    (undecided : ∀ b ∈ bs, decides b = false) (decided : decides b = true) :
    Outcome visit decides first i items s yield (yield (bs ++ [b]) t)
  | failed {before after : List α} {v : α} {bs : List β} {t u : Store} {stop : Stop}
    (split : items = before ++ v :: after) (h : Visited visit first i before bs s t)
    (undecided : ∀ b ∈ bs, decides b = false)
    (fails : visit (bs.getLast?.getD first) (i + before.length) v t = .error stop u) :
    Outcome visit decides first i items s yield (.error stop u)

/-- Visits items until one decides. -/
def visitAll (visit : Visit α β) (decides : β → Bool) (last : β) (i : Nat) :
    List α → Run (List β)
  | [] => return []
  | v :: rest => do
    let b ← visit last i v
    if decides b then return [b]
    return b :: (← visitAll visit decides b (i + 1) rest)

variable {visit : Visit α β} {decides : β → Bool} {last b : β} {i : Nat} {v : α} {rest : List α}
  {s t : Store} {yield : List β → Run γ} {r : EStateM.Result Stop Store γ}

/-- A first item that does not decide is visited ahead of the others. -/
theorem Outcome.cons (hv : visit last i v s = .ok b t) (hb : decides b = false)
    (h : Outcome visit decides b (i + 1) rest t (fun bs => yield (b :: bs)) r) :
    Outcome visit decides last i (v :: rest) s yield r := by
  have hundecided {bs : List β} (h : ∀ b ∈ bs, decides b = false) :
      ∀ c ∈ b :: bs, decides c = false :=
    List.forall_mem_cons.2 ⟨hb, h⟩
  cases h with
  | through h undecided => exact .through (.cons hv h) (hundecided undecided)
  | @decided before after w _ _ _ split h undecided decided =>
    have hsplit : v :: rest = (v :: before) ++ w :: after := congrArg (v :: ·) split
    exact .decided hsplit (.cons hv h) (hundecided undecided) decided
  | @failed before _ _ _ _ _ _ split h undecided fails =>
    refine .failed (congrArg (v :: ·) split) (.cons hv h) (hundecided undecided) ?_
    have hplace : i + (v :: before).length = i + 1 + before.length := by
      rw [List.length_cons]
      omega
    rw [List.getLast?_cons, Option.getD_some, hplace]
    exact fails

theorem outcome_visitAll (visit : Visit α β) (decides : β → Bool) (last : β) (i : Nat)
    (items : List α) (s : Store) (yield : List β → Run γ) :
    Outcome visit decides last i items s yield ((visitAll visit decides last i items >>= yield) s) := by
  induction items generalizing last i s yield with
  | nil => exact .through .nil nofun
  | cons v rest ih =>
    unfold visitAll
    rw [bind_assoc]
    cases hv : visit last i v s with
    | error stop u =>
      rw [Run.bind_error hv]
      have hsplit : v :: rest = [] ++ v :: rest := rfl
      exact .failed hsplit .nil nofun hv
    | ok b t =>
      rw [Run.bind_run hv]
      cases hb : decides b with
      | true =>
        have hsplit : v :: rest = [] ++ v :: rest := rfl
        have hvisited : Visited visit last i ([] ++ [v]) ([] ++ [b]) s t := .cons hv .nil
        exact .decided hsplit hvisited nofun hb
      | false =>
        -- what the other visits come to is put behind `b` before anything is made of it
        simp only [Bool.false_eq_true, if_false, bind_assoc, pure_bind]
        exact .cons hv hb (ih b (i + 1) t fun bs => yield (b :: bs))

/-- Only how many answers there are at most matters for what is made of them. -/
theorem Outcome.congr {first : β} {items : List α} {yield' : List β → Run γ}
    (hyield : ∀ bs : List β, bs.length ≤ items.length → yield bs = yield' bs)
    (h : Outcome visit decides first i items s yield r) :
    Outcome visit decides first i items s yield' r := by
  cases h with
  | through h undecided =>
    rw [hyield _ (Nat.le_of_eq h.length_eq)]
    exact .through h undecided
  | decided split h undecided decided =>
    have hlength := h.length_eq
    rw [hyield _ (by rw [hlength, split]; simp)]
    exact .decided split h undecided decided
  | failed split h undecided fails => exact .failed split h undecided fails

/-- A walk over items: it ends as it should, and it is exhausted only if a visit is. -/
structure Walks (visit : Visit α β) (decides : β → Bool) (first : β) (i : Nat) (items : List α)
    (s : Store) (yield : List β → Run γ) (r : EStateM.Result Stop Store γ) : Prop where
  outcome : Outcome visit decides first i items s yield r
  ends : ∀ u, r = .error .exhausted u →
    ∃ last j v t, v ∈ items ∧ visit last j v t = .error .exhausted u

theorem Outcome.walks {first : β} {items : List α}
    (h : Outcome visit decides first i items s yield r)
    (hyield : ∀ bs t u, yield bs t ≠ .error .exhausted u) :
    Walks visit decides first i items s yield r := by
  refine ⟨h, fun u hu => ?_⟩
  cases h with
  | through _ _ | decided _ _ _ _ => exact absurd hu (hyield _ _ _)
  | failed split _ _ fails =>
    cases hu
    exact ⟨_, _, _, _, by rw [split]; exact List.mem_append_right _ List.mem_cons_self, fails⟩

end

/-! ## Methods -/

section

variable (e : Engine)

/-- A function is called for an item and its position. -/
def calling (f : Native) (what : String) : Visit Native Native :=
  fun _ i v => e.callValue f [v, .ofNat i] what

/-- A function is called for what has come of the items so far, an item and its position. -/
def combining (f : Native) : Visit Native Native :=
  fun acc i v => e.callValue f [acc, v, .ofNat i] "reduce callback"

/-- No visit decides. -/
def never {β : Type} (_ : β) : Bool :=
  false

theorem mapped_eq (f : Native) (what : String) (last : Native) (i : Nat) (items : List Native) :
    e.mapped f what i items = visitAll (calling e f what) never last i items := by
  induction items generalizing last i with
  | nil => rfl
  | cons v rest ih =>
    unfold Engine.mapped visitAll
    refine bind_congr fun w => ?_
    rw [ih w]
    rfl

theorem forEach_eq (f last : Native) (i : Nat) (items : List Native) :
    e.forEach f i items =
      visitAll (calling e f "forEach callback") never last i items >>= fun _ => pure () := by
  induction items generalizing last i with
  | nil => rfl
  | cons v rest ih =>
    unfold Engine.forEach visitAll
    rw [bind_assoc]
    refine bind_congr fun w => ?_
    rw [ih w]
    simp only [never, Bool.false_eq_true, if_false, bind_assoc, pure_bind]

theorem folded_eq (f acc : Native) (i : Nat) (items : List Native) :
    e.folded f acc i items =
      visitAll (combining e f) never acc i items >>= fun accs => pure (accs.getLast?.getD acc) := by
  induction items generalizing acc i with
  | nil => rfl
  | cons v rest ih =>
    unfold Engine.folded visitAll
    rw [bind_assoc]
    refine bind_congr fun w => ?_
    rw [ih w]
    simp only [never, Bool.false_eq_true, if_false, bind_assoc, pure_bind, List.getLast?_cons,
      Option.getD_some]

/-- The first item whose answer decides, with its position. -/
def found (decides : Native → Bool) (i : Nat) (items answers : List Native) :
    Option (Nat × Native) :=
  (answers.findIdx? decides).bind fun j => items[j]?.map (i + j, ·)

theorem firstWith_eq {wanted : Bool} {decides : Native → Bool}
    (hdecides : ∀ v : Native, (v.isTruthy == wanted) = decides v) (f : Native) (what : String)
    (last : Native) (i : Nat) (items : List Native) : e.firstWith wanted f what i items =
      visitAll (calling e f what) decides last i items >>= fun answers =>
        pure (found decides i items answers) := by
  induction items generalizing last i with
  | nil => rfl
  | cons v rest ih =>
    unfold Engine.firstWith visitAll
    rw [bind_assoc]
    refine bind_congr fun w => ?_
    rw [hdecides w]
    cases hw : decides w with
    | true =>
      simp only [if_true, pure_bind, found, List.findIdx?_cons, hw]
      rfl
    | false =>
      rw [ih w]
      simp only [Bool.false_eq_true, if_false, bind_assoc, pure_bind]
      refine bind_congr fun answers => congrArg pure ?_
      unfold found
      rw [List.findIdx?_cons, hw]
      cases answers.findIdx? decides with
      | none => rfl
      | some j =>
        show rest[j]?.map (i + 1 + j, ·) = rest[j]?.map (i + (j + 1), ·)
        rw [Nat.add_right_comm]
        rfl

/-- The position of what is found is that of the first answer that decides. -/
theorem found_position (decides : Native → Bool) {items answers : List Native}
    (few : answers.length ≤ items.length) :
    (found decides 0 items answers).map (·.1) = answers.findIdx? decides := by
  unfold found
  cases hfirst : answers.findIdx? decides with
  | none => rfl
  | some j =>
    obtain ⟨hj, -⟩ := List.findIdx?_eq_some_iff_findIdx_eq.1 hfirst
    rw [Option.bind_some, List.getElem?_eq_getElem (Nat.lt_of_lt_of_le hj few), Option.map_some,
      Option.map_some, Nat.zero_add]

theorem isSome_found (decides : Native → Bool) {items answers : List Native}
    (few : answers.length ≤ items.length) :
    (found decides 0 items answers).isSome = answers.any decides := by
  rw [← Option.isSome_map, found_position decides few, List.findIdx?_isSome]

end

/-! ## Loops -/

/-- Whether a loop ends when its body ends so. -/
def leaves : Flow → Bool
  | .broke | .returned _ => true
  | .normal | .continued => false

/-- How a loop ends whose bodies ended so. -/
def loopFlow (flows : List Flow) : Flow :=
  match flows.getLast? with
  | some (.returned v) => .returned v
  | _ => .normal

theorem overItems_eq (body : Native → Run Flow) (last : Flow) (i : Nat) (vs : List Native) :
    Engine.overItems body vs =
      visitAll (fun _ _ v => body v) leaves last i vs >>= fun flows => pure (loopFlow flows) := by
  induction vs generalizing last i with
  | nil => rfl
  | cons v rest ih =>
    unfold Engine.overItems visitAll
    rw [bind_assoc]
    refine bind_congr fun flow => ?_
    cases flow with
    | broke | returned _ => rfl
    | normal | continued =>
      rw [ih]
      simp only [leaves, Bool.false_eq_true, if_false, bind_assoc, pure_bind]
      refine bind_congr fun flows => congrArg pure ?_
      unfold loopFlow
      rw [List.getLast?_cons]
      cases flows.getLast? <;> rfl

/-- A body is run in a new block in which a name is the item. -/
def running (e : Engine) (run block : Nat) (how : Script.Declarator) (key : String)
    (body : Script.Stmt) : Visit Native Flow := fun _ _ v s =>
  e.ask (.statement run s.blocks.size body)
    { s with blocks := s.blocks.push ⟨[(key, ⟨v, how = .constant⟩)], some block⟩ }

/-- The first name of a new block can be declared. -/
theorem declare_newBlock (parent : Option Nat) (key : String) (how : Script.Declarator) (v : Native)
    (k : Nat → Run Flow) (s : Store) :
    (do
      let inner ← Run.newBlock parent
      Run.declare inner key how v
      k inner : Run Flow) s =
      k s.blocks.size
        { s with blocks := s.blocks.push ⟨[(key, ⟨v, how = .constant⟩)], parent⟩ } := by
  have hnew : Run.newBlock parent s =
      .ok s.blocks.size { s with blocks := s.blocks.push ⟨[], parent⟩ } := rfl
  have hdeclare : Run.declare s.blocks.size key how v
      { s with blocks := s.blocks.push ⟨[], parent⟩ } =
      .ok () { s with blocks := s.blocks.push ⟨[(key, ⟨v, how = .constant⟩)], parent⟩ } := by
    unfold Run.declare
    rw [Run.get_bind]
    simp only [Array.getElem?_push_size]
    show EStateM.Result.ok () { s with
      blocks := (s.blocks.push ⟨[], parent⟩).modify s.blocks.size fun b : Block =>
        b.set key ⟨v, decide (how = Script.Declarator.constant)⟩ } = _
    rw [Store.modify_push]
    rfl
  rw [Run.bind_run hnew, Run.bind_run hdeclare]

/-- A loop runs its body for the items that what it walks over has by then. -/
theorem statement_forOf (e : Engine) (fuel run block : Nat) (span : Span) (how : Script.Declarator)
    (key : Name) {items : Script.Expr} (body : Script.Stmt) {s t : Store} {v : Native}
    {vs : List Native} (h : e.ask (.expression run block items) s = .ok v t)
    (hwalk : v.walk t = .ok vs) :
    e.statement fuel run block (.forOf span how key items body) s =
      (visitAll (running e run block how key.text body) leaves .normal 0 vs >>=
        fun flows => pure (loopFlow flows)) t := by
  show (e.ask (.expression run block items) >>= fun v => _ : Run Flow) s = _
  rw [Run.bind_run h]
  show (Run.ofExcept (v.walk t) >>= fun vs => _ : Run Flow) t = _
  rw [hwalk]
  have hbody : running e run block how key.text body = fun _ _ v => (do
      let inner ← Run.newBlock (some block)
      Run.declare inner key.text how v
      e.ask (.statement run inner body) : Run Flow) := by
    funext _ _ v u
    exact (declare_newBlock (some block) key.text how v
      (fun inner => e.ask (.statement run inner body)) u).symm
  rw [hbody, ← overItems_eq]
  rfl

/-! ## Laws -/

/-- What the methods of arrays do that call a function `f` for the items; `start` is what `reduce` is
to begin with, and `call` what a call of a method comes to. -/
structure MethodLaws (e : Engine) (f : Native) (start : Option Native) (items : List Native)
    (s : Store) (call : String → EStateM.Result Stop Store Native) : Prop where
  map : Walks (calling e f "map callback") never .undefined 0 items s
    (fun answers => Run.newArray answers.toArray) (call "map")
  filter : Walks (calling e f "filter callback") never .undefined 0 items s
    (fun answers => Run.newArray (((items.zip answers).filter (·.2.isTruthy)).map (·.1)).toArray)
    (call "filter")
  forEach : Walks (calling e f "forEach callback") never .undefined 0 items s
    (fun _ => pure .undefined) (call "forEach")
  find : Walks (calling e f "find callback") (·.isTruthy) .undefined 0 items s
    (fun answers => pure (((answers.findIdx? (·.isTruthy)).bind (items[·]?)).getD .undefined))
    (call "find")
  findIndex : Walks (calling e f "find callback") (·.isTruthy) .undefined 0 items s
    (fun answers => pure (((answers.findIdx? (·.isTruthy)).map .ofNat).getD (.number (-1))))
    (call "findIndex")
  some : Walks (calling e f "some callback") (·.isTruthy) .undefined 0 items s
    (fun answers => pure (.boolean (answers.any (·.isTruthy)))) (call "some")
  every : Walks (calling e f "every callback") (!·.isTruthy) .undefined 0 items s
    (fun answers => pure (.boolean (answers.all (·.isTruthy)))) (call "every")
  reduce : ∀ acc, start = .some acc → Walks (combining e f) never acc 0 items s
    (fun accs => pure (accs.getLast?.getD acc)) (call "reduce")
  /-- Without a value to begin with, it begins with the first item. -/
  reduceItems : ∀ first rest, start = none → items = first :: rest →
    Walks (combining e f) never first 1 rest s (fun accs => pure (accs.getLast?.getD first))
      (call "reduce")
  reduceNothing : start = none → items = [] →
    call "reduce" = Run.mismatch "reduce of empty array with no initial value" s

/-- What walks over the items of an array there are. -/
structure Laws (e : Engine) : Prop where
  methods : ∀ place arguments s,
    MethodLaws e (Script.argument arguments 0) arguments[1]? (s.items place).toList s
      fun name => e.callMethod (.array place) name arguments s
  forOf : ∀ fuel run block span how key items body s place t,
    e.ask (.expression run block items) s = .ok (.array place) t →
    Walks (running e run block how key.text body) leaves .normal 0 (t.items place).toList t
      (fun flows => pure (loopFlow flows))
      (e.statement fuel run block (.forOf span how key items body) s)
  spread : ∀ eval x rest s place t, eval x s = .ok (.array place) t →
    Engine.itemValues eval (.spread x :: rest) s =
      (Engine.itemValues eval rest >>= fun vs => pure ((t.items place).toList ++ vs)) t
  objectSpread : ∀ run block out x rest s place t,
    e.ask (.expression run block x) s = .ok (.array place) t →
    e.objectFields run block out (.spread x :: rest) s =
      e.objectFields run block (Keyed.putAll (Native.numbered (t.items place).toList) out) rest t

/-- A walk with a value that is made of what its visits came to. -/
theorem walks_pure {β γ : Type} {visit : Visit Native β} {decides : β → Bool} {first : β} {i : Nat}
    {items : List Native} {s : Store} {yield yield' : List β → γ}
    (hyield : ∀ bs : List β, bs.length ≤ items.length → yield bs = yield' bs) :
    Walks visit decides first i items s (fun bs => pure (yield' bs))
      ((visitAll visit decides first i items >>= fun bs => pure (yield bs)) s) := by
  have h := outcome_visitAll visit decides first i items s fun bs => pure (yield bs)
  refine (h.congr fun bs hbs => ?_).walks fun _ _ _ h => by cases h
  rw [hyield bs hbs]

theorem walks_firstWith (e : Engine) {wanted : Bool} {decides : Native → Bool}
    (hdecides : ∀ v : Native, (v.isTruthy == wanted) = decides v) (f : Native) (what : String)
    (items : List Native) (s : Store) {yield : Option (Nat × Native) → Native}
    {yield' : List Native → Native} (hyield : ∀ answers : List Native,
      answers.length ≤ items.length → yield (found decides 0 items answers) = yield' answers) :
    Walks (calling e f what) decides .undefined 0 items s (fun answers => pure (yield' answers))
      ((e.firstWith wanted f what 0 items >>= fun o => pure (yield o)) s) := by
  rw [firstWith_eq e hdecides f what .undefined, bind_assoc]
  simp only [pure_bind]
  exact walks_pure hyield

theorem methodLaws (e : Engine) (place : Nat) (arguments : List Native) (s : Store) :
    MethodLaws e (Script.argument arguments 0) arguments[1]? (s.items place).toList s
      fun name => e.callMethod (.array place) name arguments s := by
  have hreduce : e.callMethod (.array place) "reduce" arguments s =
      e.reduced arguments (s.items place).toList s := rfl
  constructor
  case map =>
    show Walks _ _ _ _ _ _ _ ((e.mapped _ _ 0 (s.items place).toList >>= fun answers => _) s)
    rw [mapped_eq e _ _ .undefined]
    exact (outcome_visitAll ..).walks fun _ _ _ h => by cases h
  case filter =>
    show Walks _ _ _ _ _ _ _ ((e.mapped _ _ 0 (s.items place).toList >>= fun answers => _) s)
    rw [mapped_eq e _ _ .undefined]
    exact (outcome_visitAll ..).walks fun _ _ _ h => by cases h
  case forEach =>
    show Walks _ _ _ _ _ _ _ ((e.forEach _ 0 (s.items place).toList >>= fun _ => _) s)
    rw [forEach_eq e _ .undefined, bind_assoc]
    simp only [pure_bind]
    exact walks_pure fun _ _ => rfl
  case find =>
    refine walks_firstWith e (fun v => beq_true v.isTruthy) _ _ _ _ fun answers _ => ?_
    unfold found
    rw [Option.map_bind]
    simp only [Function.comp_def, Option.map_map, Option.map_id']
  case findIndex =>
    refine walks_firstWith e (fun v => beq_true v.isTruthy) _ _ _ _ fun answers few => ?_
    rw [← found_position _ few, Option.map_map]
    rfl
  case some =>
    refine walks_firstWith e (fun v => beq_true v.isTruthy) _ _ _ _ fun answers few => ?_
    rw [isSome_found _ few]
  case every =>
    refine walks_firstWith e (fun v => beq_false v.isTruthy) _ _ _ _ fun answers few => ?_
    rw [← Option.not_isSome, isSome_found _ few, List.not_any_eq_all_not]
    simp only [Bool.not_not]
  case reduce =>
    intro acc hstart
    rw [hreduce]
    unfold Engine.reduced
    simp only [hstart]
    rw [folded_eq]
    exact walks_pure fun _ _ => rfl
  case reduceItems =>
    intro first rest hstart hitems
    rw [hreduce]
    unfold Engine.reduced
    simp only [hstart, hitems]
    rw [folded_eq]
    exact walks_pure fun _ _ => rfl
  case reduceNothing =>
    intro hstart hitems
    rw [hreduce]
    unfold Engine.reduced
    simp only [hstart, hitems]

/-- Every loop over an array, spread of it and method that calls a function for its items takes the items
that the array has at the start, whatever is done to the array afterwards. -/
theorem walks_see_the_array_as_it_was (e : Engine) : Laws e where
  methods := methodLaws e
  forOf fuel run block span how key items body s place t h := by
    rw [statement_forOf e fuel run block span how key body h rfl]
    exact walks_pure fun _ _ => rfl
  spread eval x rest s place t h := Run.bind_run h
  objectSpread run block out x rest s place t h := Run.bind_run h

/-- A block in which a name is an array of one. -/
def oneItem : Store :=
  { Store.empty with
    arrays := #[.ofContent #[.boolean true]]
    blocks := #[⟨[("xs", ⟨.array 0, true⟩)], none⟩] }

/-- `xs.push(x)` -/
def pushing : Script.Stmt :=
  .expr (.call default (.member default (.name default "xs") ⟨"push", default⟩)
    [.one (.name default "x")])

/-- Whether a statement ends normally, with so many items in the first array. -/
def endsWith (n : Nat) : EStateM.Result Stop Store Flow → Bool
  | .ok .normal s => (s.items 0).size == n
  | _ => false

theorem xs_oneItem : (Engine.ofFuel 8).ask (.expression 0 0 (.name default "xs")) oneItem =
    .ok (.array 0) oneItem := by
  have hvalue : oneItem.valueOf? 0 "xs" = some (.array 0) := by
    unfold Store.valueOf? Store.resolve?
    rfl
  show (Engine.ofFuel 7).nameInScript 0 0 "xs" oneItem = _
  unfold Engine.nameInScript
  rw [Run.get_bind, hvalue]
  rfl

/-- A loop over an array that its body adds to ends after the items that were there. -/
theorem growing_array_is_left :
    (Engine.ofFuel 8).ask (.expression 0 0 (.name default "xs")) oneItem = .ok (.array 0) oneItem ∧
    ∃ r, (Engine.ofFuel 8).statement 8 0 0
        (.forOf default .constant ⟨"x", default⟩ (.name default "xs") pushing) oneItem = r ∧
      endsWith 2 r = true ∧
      Walks (running (Engine.ofFuel 8) 0 0 .constant "x" pushing) leaves .normal 0 [.boolean true]
        oneItem (fun flows => pure (loopFlow flows)) r :=
  ⟨xs_oneItem, _, rfl, by with_unfolding_all rfl,
    (walks_see_the_array_as_it_was (Engine.ofFuel 8)).forOf 8 0 0 default .constant ⟨"x", default⟩
      (.name default "xs") pushing oneItem 0 oneItem xs_oneItem⟩

end Iteration
end Workbook
