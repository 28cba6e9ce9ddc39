/-
Expressions, statements and functions of scripts correspond.

An expression or a statement corresponds to itself in paired executions and blocks, by
its cases; loops go round as often as there is fuel, in both runs alike.  What a script
can do to the store it does through the store's own operations, so nothing here looks
into a world.
-/
import Workbook.Proofs.Simulation.Method

open List (Forall₂)

namespace Workbook

/-! ## Parts of scripts -/

namespace Script

/-- The name that an expression is. -/
def Expr.named? : Expr → Option String
  | .name _ s => some s
  | _ => none

/-- The name that an expression itself assigns to. -/
def Expr.assigned? : Expr → Option String
  | .assign _ _ left _ => left.named?
  | .update _ _ _ target => target.named?
  | _ => none

namespace Stmt

/-- The statements that a statement runs in the block that it is run in itself. -/
def direct : Stmt → List Stmt
  | branch _ _ yes no => yes :: no.toList
  | whileLoop _ _ body => [body]
  | _ => []

/-- The statements that a statement runs in blocks that it makes. -/
def inner : Stmt → List Stmt
  | forLoop _ start _ _ body => body :: start.toList
  | forOf _ _ _ _ body => [body]
  | block _ body => body
  | _ => []

/-- The names that a statement itself declares in its block. -/
def declared : Stmt → List String
  | declaration _ _ k _ => [k.text]
  | _ => []

/-- The names that a statement itself declares in the blocks that it makes. -/
def iterated : Stmt → List String
  | forOf _ _ k _ _ => [k.text]
  | _ => []

/-- The names of the functions that a list of statements declares. -/
def hoisted : List Stmt → List String
  | [] => []
  | function f :: rest => (f.name.map Name.text).toList ++ hoisted rest
  | _ :: rest => hoisted rest

end Stmt
end Script

/-- What calling a function comes to once the call is counted. -/
def Engine.called (engine : Engine) (run block : Nat) (f : Script.Function) (name : String)
    (arguments : List Native) : Run Native := do
  let inner ← Run.newBlock (some block)
  defineParameters inner arguments 0 f.parameters
  Run.mapFailure (·.left name) (engine.bodyValue run inner f.body)

theorem Engine.invoke_eq (engine : Engine) (run block : Nat) (f : Script.Function) (name : String)
    (arguments : List Native) :
    engine.invoke run block f name arguments =
      callDuring run (engine.called run block f name arguments) :=
  rfl

namespace Simulation

open Script

variable {S : Simulation} {e₁ e₂ : Engine} {w : S.World}

/-! ## Parts of expressions -/

theorem rel_newFunction {a b c d : Nat} (hr : (S.pairing w).executions a b)
    (hb : (S.pairing w).blocks c d) (f : Function) (bound : Option String) :
    S.Rel w (Engine.newFunction a c f bound) (Engine.newFunction b d f bound) S.native :=
  rel_newNative (.script f _ hr hb)

theorem rel_templateTexts {f g : Expr → Run Native} (h : S.Evals w S.native f g)
    (ps : List (Piece Expr)) :
    S.Rel w (Engine.templateTexts f ps) (Engine.templateTexts g ps) S.equal := by
  induction ps generalizing w with
  | nil => exact S.pure rfl
  | cons p ps ih =>
    cases p with
    | text s => exact (ih h).bind fun _ _ _ _ ht => S.pure (ht ▸ rfl)
    | hole e =>
      refine (h.now e).bind fun w₁ h₁ v v' hv => ?_
      refine (rel_textOf hv).bind fun w₂ h₂ t t' ht => ?_
      refine (ih (h.mono (S.le_trans h₁ h₂))).bind fun w₃ h₃ ts ts' hts => ?_
      rw [ht, hts]
      exact S.pure rfl

theorem rel_itemValues {f g : Expr → Run Native} (h : S.Evals w S.native f g)
    (is : List (Item Expr)) :
    S.Rel w (Engine.itemValues f is) (Engine.itemValues g is) S.natives := by
  induction is generalizing w with
  | nil => exact S.pure .nil
  | cons i is ih =>
    cases i with
    | one e =>
      refine (h.now e).bind fun w₁ h₁ v v' hv => ?_
      refine (ih (h.mono h₁)).bind fun w₂ h₂ vs vs' hvs => ?_
      exact S.pure (.cons (native_mono h₂ hv) hvs)
    | spread e =>
      refine (h.now e).bind fun w₁ h₁ v v' hv => ?_
      refine S.get fun s t hs => ?_
      refine (rel_ofExcept (R := S.natives) (Native.walk_alike hs hv)).bind
        fun w₂ h₂ us us' hus => ?_
      refine (ih (h.mono (S.le_trans h₁ h₂))).bind fun w₃ h₃ vs vs' hvs => ?_
      exact S.pure (List.rel_append (natives_mono h₃ hus) hvs)

/-! ## Operands and targets -/

theorem rel_typeOfOperand {f g : Expr → Run Native} (h : S.Evals w S.native f g) {a b c d : Nat}
    (hr : (S.pairing w).executions a b) (hb : (S.pairing w).blocks c d) (e : Expr) :
    S.Rel w (Engine.typeOfOperand f a c e) (Engine.typeOfOperand g b d e) S.native := by
  have heval {w' : S.World} (hw : S.le w w') : S.Rel w'
      (do return .string (← f e).typeOf) (do return .string (← g e).typeOf) S.native :=
    (h w' hw e).bind fun _ _ _ _ hv => S.pure (hv.typeOf_eq ▸ .string _)
  cases e with
  | name _ s =>
    refine (rel_isDefined hr hb s).bind fun w₁ h₁ r r' hr => ?_
    rw [hr]
    split
    · exact S.pure (.string _)
    · exact heval h₁
  | _ => exact heval (S.le_refl w)

theorem rel_deleteOperand {f g : Expr → Run Native} (h : S.Evals w S.native f g) {c d : Nat}
    (hb : (S.pairing w).blocks c d) (e : Expr) :
    S.Rel w (Engine.deleteOperand f c e) (Engine.deleteOperand g d e) S.native := by
  cases e with
  | name _ s =>
    refine S.get fun s t hs => ?_
    simp only [optional_isSome (hs.valueOf? hb _)]
    split
    · exact S.pure (.boolean _)
    · exact S.fail _
  | member _ object k =>
    refine (h.now object).bind fun w₁ h₁ v v' hv => ?_
    exact (rel_deleteProperty hv k.text).bind fun _ _ _ _ _ => S.pure (.boolean _)
  | index _ object k =>
    refine (h.now object).bind fun w₁ h₁ v v' hv => ?_
    refine (h w₁ h₁ k).bind fun w₂ h₂ u u' hu => ?_
    refine (rel_textOf hu).bind fun w₃ h₃ t t' ht => ?_
    rw [ht]
    exact (rel_deleteProperty (native_mono (S.le_trans h₂ h₃) hv) _).bind fun _ _ _ _ _ =>
      S.pure (.boolean _)
  | _ => exact (h.now _).bind fun _ _ _ _ _ => S.pure (.boolean _)

theorem rel_unaryExpression {f g : Expr → Run Native} (h : S.Evals w S.native f g)
    {a b c d : Nat} (hr : (S.pairing w).executions a b) (hb : (S.pairing w).blocks c d)
    (op : UnaryOp) (e : Expr) :
    S.Rel w (Engine.unaryExpression f a c op e) (Engine.unaryExpression g b d op e) S.native := by
  cases op with
  | typeof => exact rel_typeOfOperand h hr hb e
  | delete => exact rel_deleteOperand h hb e
  | neg =>
    exact (h.now e).bind fun w₁ h₁ v v' hv => S.get fun s t hs => S.pure (Native.negate_alike hs hv)
  | plus =>
    exact (h.now e).bind fun w₁ h₁ v v' hv =>
      S.get fun s t hs => rel_ofExcept (Native.plus_alike hs hv)
  | not => exact (h.now e).bind fun w₁ h₁ v v' hv => S.pure (hv.isTruthy_eq ▸ .boolean _)

/-- Two targets of an assignment. -/
inductive TargetAlike (p : Pairing) : Target → Target → Prop
  | name (s : String) : TargetAlike p (.name s) (.name s)
  | property (key : String) {v w : Native} (h : Native.Alike p v w) :
      TargetAlike p (.property v key) (.property w key)

theorem TargetAlike.mono {p q : Pairing} {t t' : Target} :
    TargetAlike p t t' → p.Within q → TargetAlike q t t'
  | .name s, _ => .name s
  | .property key hv, h => .property key (hv.mono h)

/-- A target is the name that stands on the left side, if one does. -/
theorem rel_target {f g : Expr → Run Native} (h : S.Evals w S.native f g) (e : Expr) :
    S.Rel w (Engine.target f e) (Engine.target g e) fun w t t' =>
      TargetAlike (S.pairing w) t t' ∧ ∀ s, t = .name s → e.named? = some s := by
  cases e with
  | name _ s => exact S.pure ⟨.name s, fun _ ht => congrArg some (Target.name.inj ht)⟩
  | member _ object k =>
    exact (h.now object).bind fun _ _ _ _ hv => S.pure ⟨.property k.text hv, fun _ => nofun⟩
  | index _ object k =>
    refine (h.now object).bind fun w₁ h₁ v v' hv => ?_
    refine (h w₁ h₁ k).bind fun w₂ h₂ u u' hu => ?_
    refine (rel_textOf hu).bind fun w₃ h₃ t t' ht => ?_
    rw [ht]
    exact S.pure ⟨.property _ (native_mono (S.le_trans h₂ h₃) hv), fun _ => nofun⟩
  | _ => exact S.fail _

/-- From a world on, a name can be assigned to in two blocks. -/
def Assigns (S : Simulation) (w : S.World) (c d : Nat) (name : String) : Prop :=
  ∀ w', S.le w w' → ∀ v v', S.native w' v v' →
    S.Rel w' (Run.assign c name v) (Run.assign d name v') S.anything

theorem Assigns.mono {w' : S.World} {c d : Nat} {name : String} (h : S.Assigns w c d name)
    (hw : S.le w w') : S.Assigns w' c d name :=
  fun w'' hw' => h w'' (S.le_trans hw hw')

theorem SetsVariables.assigns (hS : S.SetsVariables) {c d : Nat} (hb : (S.pairing w).blocks c d)
    (name : String) : S.Assigns w c d name :=
  fun _ hw _ _ hv => hS.assign ((S.within hw).blocks hb) name hv

theorem rel_writeTarget {c d : Nat} {t t' : Target} (ht : TargetAlike (S.pairing w) t t')
    (ha : ∀ s, t = .name s → S.Assigns w c d s) {v v' : Native} (hv : S.native w v v') :
    S.Rel w (Engine.writeTarget c t v) (Engine.writeTarget d t' v') S.anything := by
  cases ht with
  | name s => exact ha s rfl w (S.le_refl w) v v' hv
  | property key hu => exact rel_setProperty hu key hv

/-! ## Statements without an engine -/

/-- From a world on, names can be defined in two blocks, whatever they meant before. -/
def Defines (S : Simulation) (w : S.World) (c d : Nat) (names : List String) : Prop :=
  ∀ w', S.le w w' → ∀ name ∈ names, ∀ v v', S.native w' v v' →
    S.Rel w' (Run.define c name v) (Run.define d name v') S.anything

theorem Defines.mono {w' : S.World} {c d : Nat} {names : List String} (h : S.Defines w c d names)
    (hw : S.le w w') : S.Defines w' c d names :=
  fun w'' hw' => h w'' (S.le_trans hw hw')

theorem Defines.subset {c d : Nat} {names names' : List String} (h : S.Defines w c d names)
    (hn : names' ⊆ names) : S.Defines w c d names' :=
  fun w' hw name hname => h w' hw name (hn hname)

theorem SetsVariables.defines (hS : S.SetsVariables) {c d : Nat} (hb : (S.pairing w).blocks c d)
    (names : List String) : S.Defines w c d names :=
  fun _ hw name _ _ _ hv => hS.define ((S.within hw).blocks hb) name hv

theorem rel_hoist {a b c d : Nat} (hr : (S.pairing w).executions a b)
    (hb : (S.pairing w).blocks c d) {sts : List Stmt} (hd : S.Defines w c d (Stmt.hoisted sts)) :
    S.Rel w (Engine.hoist a c sts) (Engine.hoist b d sts) S.anything := by
  induction sts generalizing w with
  | nil => exact S.pure trivial
  | cons st sts ih =>
    cases st with
    | function f =>
      unfold Engine.hoist
      unfold Stmt.hoisted at hd
      cases hname : f.name with
      | none => exact ih hr hb (hd.subset (List.subset_append_right _ _))
      | some n =>
        refine (rel_newFunction hr hb f none).bind fun w₁ h₁ v v' hv => ?_
        refine Rel.bind (hd w₁ h₁ n.text (by simp [hname]) v v' hv) fun w₂ h₂ _ _ _ => ?_
        have hw := S.le_trans h₁ h₂
        exact ih ((S.within hw).executions hr) ((S.within hw).blocks hb)
          ((hd.mono hw).subset (List.subset_append_right _ _))
    | _ => exact ih hr hb hd

/-- A loop whose parts correspond in every world it comes to. -/
theorem rel_repeatWhile {c c' : Run Bool} {x x' : Run Flow} {y y' : Run Unit}
    (hc : ∀ w', S.le w w' → S.Rel w' c c' S.equal) (hx : ∀ w', S.le w w' → S.Rel w' x x' S.flow)
    (hy : ∀ w', S.le w w' → S.Rel w' y y' S.anything) {m n : Nat} (hf : S.Fuel m n) :
    S.Rel w (Engine.repeatWhile c x y m) (Engine.repeatWhile c' x' y' n) S.flow := by
  induction m generalizing n w with
  | zero =>
    cases n with
    | zero => exact S.exhausted
    | succ n => exact S.fuel_left hf
  | succ m ih =>
    cases n with
    | zero => exact S.fuel_right hf
    | succ n =>
      refine (hc w (S.le_refl w)).bind fun w₁ h₁ r r' hr => ?_
      rw [hr]
      split
      · refine (hx w₁ h₁).bind fun w₂ h₂ r r' hr => ?_
        have h₂' := S.le_trans h₁ h₂
        have hnext : S.Rel w₂ (do y; Engine.repeatWhile c x y m)
            (do y'; Engine.repeatWhile c' x' y' n) S.flow :=
          (hy w₂ h₂').bind fun w₃ h₃ _ _ _ =>
            have h₃' := S.le_trans h₂' h₃
            ih (fun w' hw => hc w' (S.le_trans h₃' hw)) (fun w' hw => hx w' (S.le_trans h₃' hw))
              (fun w' hw => hy w' (S.le_trans h₃' hw)) (S.fuel_succ hf)
        cases hr with
        | broke => exact S.pure .normal
        | returned hv => exact S.pure (.returned hv)
        | normal => exact hnext
        | continued => exact hnext
      · exact S.pure .normal

theorem rel_overItems {f g : Native → Run Flow} {vs ws : List Native}
    (h : ∀ w', S.le w w' → ∀ v v', S.native w' v v' → S.Rel w' (f v) (g v') S.flow)
    (hv : S.natives w vs ws) :
    S.Rel w (Engine.overItems f vs) (Engine.overItems g ws) S.flow := by
  induction vs generalizing ws w with
  | nil =>
    cases hv
    exact S.pure .normal
  | cons v vs ih =>
    cases hv with
    | cons hx hxs =>
      refine (h w (S.le_refl w) _ _ hx).bind fun w₁ h₁ r r' hr => ?_
      have hnext := ih (fun w' hw => h w' (S.le_trans h₁ hw)) (natives_mono h₁ hxs)
      cases hr with
      | broke => exact S.pure .normal
      | returned hv => exact S.pure (.returned hv)
      | normal => exact hnext
      | continued => exact hnext

theorem rel_defineParameters {c d : Nat} {vs ws : List Native} (hv : S.natives w vs ws) (i : Nat)
    {ps : List Name} (hd : S.Defines w c d (ps.map Name.text)) :
    S.Rel w (Engine.defineParameters c vs i ps) (Engine.defineParameters d ws i ps)
      S.anything := by
  induction ps generalizing i w with
  | nil => exact S.pure trivial
  | cons p ps ih =>
    refine Rel.bind (hd w (S.le_refl w) p.text List.mem_cons_self _ _ (argument_alike hv i))
      fun w₁ h₁ _ _ _ => ?_
    exact ih (natives_mono h₁ hv) (i + 1) ((hd.mono h₁).subset (List.subset_cons_self _ _))

namespace Supplies

variable (he : S.Supplies e₁ e₂)
include he

/-! ## Expressions -/

theorem evals {a b c d : Nat} (hr : (S.pairing w).executions a b)
    (hb : (S.pairing w).blocks c d) :
    S.Evals w S.native (fun e => e₁.ask (.expression a c e))
      (fun e => e₂.ask (.expression b d e)) :=
  fun _ hw e => he.expression e ((S.within hw).executions hr) ((S.within hw).blocks hb)

theorem boundValue {a b c d : Nat} (hr : (S.pairing w).executions a b)
    (hb : (S.pairing w).blocks c d) (name : String) (e : Expr) :
    S.Rel w (e₁.boundValue a c name e) (e₂.boundValue b d name e) S.native := by
  cases e with
  | function f => exact rel_newFunction hr hb f _
  | _ => exact he.expression _ hr hb

theorem objectFields {a b c d : Nat} (hr : (S.pairing w).executions a b)
    (hb : (S.pairing w).blocks c d) {out out' : Fields} (ho : S.fields w out out')
    (es : List (Entry Expr)) :
    S.Rel w (e₁.objectFields a c out es) (e₂.objectFields b d out' es) S.fields := by
  induction es generalizing out out' w with
  | nil => exact S.pure ho
  | cons e es ih =>
    cases e with
    | field k e =>
      refine (he.boundValue hr hb k.text e).bind fun w₁ h₁ v v' hv => ?_
      exact ih ((S.within h₁).executions hr) ((S.within h₁).blocks hb)
        (Keyed.put_alike (fields_mono h₁ ho) k.text hv)
    | spread e =>
      refine (he.expression e hr hb).bind fun w₁ h₁ v v' hv => ?_
      refine S.get fun s t hs => ?_
      exact ih ((S.within h₁).executions hr) ((S.within h₁).blocks hb)
        (Keyed.putAll_alike (Native.properties_alike hs hv) (fields_mono h₁ ho))

theorem callExpression {f g : Expr → Run Native} (h : S.Evals w S.native f g) (callee : Expr)
    (arguments : List (Item Expr)) :
    S.Rel w (e₁.callExpression f callee arguments) (e₂.callExpression g callee arguments)
      S.native := by
  have hcall : S.Rel w
      (do
        let v ← f callee
        let arguments ← Engine.itemValues f arguments
        e₁.callValue v arguments callee.calleeText)
      (do
        let v ← g callee
        let arguments ← Engine.itemValues g arguments
        e₂.callValue v arguments callee.calleeText) S.native := by
    refine (h.now callee).bind fun w₁ h₁ v v' hv => ?_
    refine (rel_itemValues (h.mono h₁) arguments).bind fun w₂ h₂ vs vs' hvs => ?_
    exact he.callValue (native_mono h₂ hv) hvs _
  cases callee with
  | member _ object k =>
    refine (h.now object).bind fun w₁ h₁ v v' hv => ?_
    refine (rel_itemValues (h.mono h₁) arguments).bind fun w₂ h₂ vs vs' hvs => ?_
    exact he.callMethod (native_mono h₂ hv) k.text hvs
  | index _ object k =>
    refine (h.now object).bind fun w₁ h₁ v v' hv => ?_
    refine (h w₁ h₁ k).bind fun w₂ h₂ u u' hu => ?_
    refine (rel_textOf hu).bind fun w₃ h₃ t t' ht => ?_
    have h₃' := S.le_trans h₂ h₃
    refine (rel_itemValues (h.mono (S.le_trans h₁ h₃')) arguments).bind fun w₄ h₄ vs vs' hvs => ?_
    rw [ht]
    exact he.callMethod (native_mono (S.le_trans h₃' h₄) hv) _ hvs
  | _ => exact hcall

theorem readTarget {a b c d : Nat} (hr : (S.pairing w).executions a b)
    (hb : (S.pairing w).blocks c d) {t t' : Target} (ht : TargetAlike (S.pairing w) t t') :
    S.Rel w (e₁.readTarget a c t) (e₂.readTarget b d t') S.native := by
  cases ht with
  | name s => exact he.nameInScript hr hb s
  | property key hv => exact rel_property hv key

theorem assignment {f g : Expr → Run Native} (h : S.Evals w S.native f g) {a b c d : Nat}
    (hr : (S.pairing w).executions a b) (hb : (S.pairing w).blocks c d) (op : AssignOp)
    (left right : Expr) (ha : ∀ s, left.named? = some s → S.Assigns w c d s) :
    S.Rel w (e₁.assignment f a c op left right) (e₂.assignment g b d op left right) S.native := by
  refine (rel_target h left).bind fun w₁ h₁ t t' ⟨ht, hname⟩ => ?_
  have hr₁ := (S.within h₁).executions hr
  have hb₁ := (S.within h₁).blocks hb
  -- The value that is assigned, and then the assignment.
  have hwrite {x y : Run Native} (hx : S.Rel w₁ x y S.native) :
      S.Rel w₁ (do let v ← x; Engine.writeTarget c t v; return v)
        (do let v ← y; Engine.writeTarget d t' v; return v) S.native := by
    refine hx.bind fun w₂ h₂ v v' hv => ?_
    refine (rel_writeTarget (ht.mono (S.within h₂))
      (fun s hs => (ha s (hname s hs)).mono (S.le_trans h₁ h₂)) hv).bind fun w₃ h₃ _ _ _ => ?_
    exact S.pure (native_mono h₃ hv)
  have hop (op : BinaryOp) : S.Rel w₁
      (do
        let old ← e₁.readTarget a c t
        Run.binary op old (← f right))
      (do
        let old ← e₂.readTarget b d t'
        Run.binary op old (← g right)) S.native := by
    refine (he.readTarget hr₁ hb₁ ht).bind fun w₂ h₂ v v' hv => ?_
    refine (h w₂ (S.le_trans h₁ h₂) right).bind fun w₃ h₃ u u' hu => ?_
    exact rel_binary op (native_mono h₃ hv) hu
  cases op.binary? with
  | some op =>
    have := hwrite (hop op)
    simp only [bind_assoc] at this
    cases ht <;> exact this
  | none =>
    cases ht with
    | name s => exact hwrite (he.boundValue hr₁ hb₁ s right)
    | property key hv => exact hwrite (h w₁ h₁ right)

theorem update {f g : Expr → Run Native} (h : S.Evals w S.native f g) {a b c d : Nat}
    (hr : (S.pairing w).executions a b) (hb : (S.pairing w).blocks c d) (increment first : Bool)
    (e : Expr) (ha : ∀ s, e.named? = some s → S.Assigns w c d s) :
    S.Rel w (e₁.update f a c increment first e) (e₂.update g b d increment first e) S.native := by
  refine (rel_target h e).bind fun w₁ h₁ t t' ⟨ht, hname⟩ => ?_
  have hb₁ := (S.within h₁).blocks hb
  refine (he.readTarget ((S.within h₁).executions hr) hb₁ ht).bind fun w₂ h₂ v v' hv => ?_
  refine S.get fun s s' hs => ?_
  obtain ⟨hold, hone⟩ := Native.counted_alike hs hv
  refine (rel_binary _ hold hone).bind fun w₃ h₃ u u' hu => ?_
  have h₃' := S.le_trans h₂ h₃
  refine (rel_writeTarget (ht.mono (S.within h₃'))
    (fun s hs => (ha s (hname s hs)).mono (S.le_trans h₁ h₃')) hu).bind fun w₄ h₄ _ _ _ => S.pure ?_
  split
  · exact native_mono h₄ hu
  · exact native_mono (S.le_trans h₃ h₄) hold

/-- An expression corresponds to itself in paired executions and blocks in which what it assigns
to itself can be assigned to. -/
theorem expressionOf {a b c d : Nat} (hr : (S.pairing w).executions a b)
    (hb : (S.pairing w).blocks c d) (e : Expr)
    (ha : ∀ s, e.assigned? = some s → S.Assigns w c d s) :
    S.Rel w (e₁.expression a c e) (e₂.expression b d e) S.native := by
  have h := he.evals hr hb
  cases e with
  | undefined => exact S.pure .undefined
  | null => exact S.pure .null
  | boolean _ b => exact S.pure (.boolean b)
  | number _ x => exact S.pure (.number x)
  | string _ s => exact S.pure (.string s)
  | template _ pieces =>
    exact (rel_templateTexts h pieces).bind fun _ _ _ _ ht => S.pure (ht ▸ .string _)
  | array _ items =>
    exact (rel_itemValues h items).bind fun _ _ _ _ hv => S.newArray (toArray_alike hv)
  | object _ entries =>
    exact (he.objectFields hr hb .nil entries).bind fun _ _ _ _ hf => S.newObject hf
  | name _ s => exact he.nameInScript hr hb s
  | member _ object k => exact (h.now object).bind fun _ _ _ _ hv => rel_property hv k.text
  | index _ object k =>
    refine (h.now object).bind fun w₁ h₁ v v' hv => ?_
    refine (h w₁ h₁ k).bind fun w₂ h₂ u u' hu => ?_
    refine (rel_textOf hu).bind fun w₃ h₃ t t' ht => ?_
    rw [ht]
    exact rel_property (native_mono (S.le_trans h₂ h₃) hv) _
  | call _ callee arguments => exact he.callExpression h callee arguments
  | unary _ op operand => exact rel_unaryExpression h hr hb op operand
  | update _ increment first t => exact he.update h hr hb increment first t ha
  | binary _ op left right =>
    refine (h.now left).bind fun w₁ h₁ v v' hv => ?_
    exact (h w₁ h₁ right).bind fun w₂ h₂ u u' hu => rel_binary op (native_mono h₂ hv) hu
  | logical _ op left right =>
    refine (h.now left).bind fun w₁ h₁ v v' hv => ?_
    have hd : op.decides v = op.decides v' := by
      unfold LogicalOp.decides
      rw [hv.isTruthy_eq, hv.isNullish_eq]
    simp only [hd]
    split
    · exact S.pure hv
    · exact h w₁ h₁ right
  | conditional _ c yes no =>
    refine (h.now c).bind fun w₁ h₁ v v' hv => ?_
    simp only [hv.isTruthy_eq]
    split
    · exact h w₁ h₁ yes
    · exact h w₁ h₁ no
  | assign _ op left right => exact he.assignment h hr hb op left right ha
  | function f => exact rel_newFunction hr hb f none

end Supplies

/-! ## Statements -/

/-- From a world on, two engines answer alike when they are asked for statements in two blocks. -/
def Asks (S : Simulation) (e₁ e₂ : Engine) (w : S.World) (a b c d : Nat) (sts : List Stmt) : Prop :=
  ∀ w', S.le w w' → ∀ st ∈ sts,
    S.Rel w' (e₁.ask (.statement a c st)) (e₂.ask (.statement b d st)) S.flow

theorem Asks.mono {w' : S.World} {a b c d : Nat} {sts : List Stmt} (h : S.Asks e₁ e₂ w a b c d sts)
    (hw : S.le w w') : S.Asks e₁ e₂ w' a b c d sts :=
  fun w'' hw' => h w'' (S.le_trans hw hw')

/-- Statements correspond in order if they do one by one. -/
theorem rel_inOrder (hm : S.PassesFailures) {a b c d : Nat} {sts : List Stmt}
    (h : S.Asks e₁ e₂ w a b c d sts) :
    S.Rel w (e₁.inOrder a c sts) (e₂.inOrder b d sts) S.flow := by
  induction sts generalizing w with
  | nil => exact S.pure .normal
  | cons st sts ih =>
    have hst := h w (S.le_refl w) st List.mem_cons_self
    refine (hm.mapFailure (Failure.unseen_located _ _) hst).bind fun w₁ h₁ r r' hf => ?_
    cases hf with
    | normal => exact ih fun w' hw st' hst' => h w' (S.le_trans h₁ hw) st' (.tail _ hst')
    | returned hv => exact S.pure (.returned hv)
    | broke => exact S.pure .broke
    | continued => exact S.pure .continued

theorem rel_statements (hm : S.PassesFailures) {a b c d : Nat} (hr : (S.pairing w).executions a b)
    (hb : (S.pairing w).blocks c d) {sts : List Stmt} (hd : S.Defines w c d (Stmt.hoisted sts))
    (h : S.Asks e₁ e₂ w a b c d sts) :
    S.Rel w (e₁.statements a c sts) (e₂.statements b d sts) S.flow :=
  (rel_hoist hr hb hd).bind fun _ hw _ _ _ => rel_inOrder hm (h.mono hw)

/-- What a statement does in its block, and in those that it makes, corresponds in two runs.
`Inner` says which blocks are made. -/
structure Parts (S : Simulation) (e₁ e₂ : Engine) (w : S.World) (a b c d : Nat) (st : Stmt)
    (Inner : S.World → Nat → Nat → Prop) : Prop where
  declare : ∀ {w'}, S.le w w' → ∀ name ∈ st.declared, ∀ how v v', S.native w' v v' →
    S.Rel w' (Run.declare c name how v) (Run.declare d name how v') S.anything
  direct : S.Asks e₁ e₂ w a b c d st.direct
  newBlock : ∀ {w'}, S.le w w' →
    S.Rel w' (Run.newBlock (some c)) (Run.newBlock (some d)) Inner
  blocks : ∀ {w' i j}, Inner w' i j → (S.pairing w').blocks i j
  mono : ∀ {w' w'' i j}, S.le w' w'' → Inner w' i j → Inner w'' i j
  declareInner : ∀ {w' i j}, S.le w w' → Inner w' i j → ∀ name ∈ st.iterated, ∀ how v v',
    S.native w' v v' → S.Rel w' (Run.declare i name how v) (Run.declare j name how v') S.anything
  inner : ∀ {w' i j}, S.le w w' → Inner w' i j → S.Asks e₁ e₂ w' a b i j st.inner
  statements : ∀ {w' i j}, S.le w w' → Inner w' i j → ∀ span body, st = .block span body →
    S.Rel w' (e₁.statements a i body) (e₂.statements b j body) S.flow

namespace Supplies

variable (he : S.Supplies e₁ e₂)
include he

theorem holds {a b c d : Nat} (hr : (S.pairing w).executions a b)
    (hb : (S.pairing w).blocks c d) (e : Expr) :
    S.Rel w (do return (← e₁.ask (.expression a c e)).isTruthy)
      (do return (← e₂.ask (.expression b d e)).isTruthy) S.equal :=
  (he.expression e hr hb).bind fun _ _ _ _ hv => S.pure hv.isTruthy_eq

/-- A loop once it has started.  What it is without a condition and a step is said there. -/
theorem loopOf {m n : Nat} (hf : S.Fuel m n) {a b i j : Nat} (hr : (S.pairing w).executions a b)
    (hij : (S.pairing w).blocks i j) (cond step : Option Expr) {body : Stmt}
    (hbody : S.Asks e₁ e₂ w a b i j [body]) :
    S.Rel w
      (Engine.repeatWhile
        (match cond with
          | some c => do return (← e₁.ask (.expression a i c)).isTruthy
          | none => return true)
        (e₁.ask (.statement a i body))
        (match step with
          | some e => do let _ ← e₁.ask (.expression a i e)
          | none => return) m)
      (Engine.repeatWhile
        (match cond with
          | some c => do return (← e₂.ask (.expression b j c)).isTruthy
          | none => return true)
        (e₂.ask (.statement b j body))
        (match step with
          | some e => do let _ ← e₂.ask (.expression b j e)
          | none => return) n) S.flow := by
  refine rel_repeatWhile (fun w' hw => ?_) (fun w' hw => ?_) (fun w' hw => ?_) hf
  · cases cond with
    | none => exact S.pure rfl
    | some c => exact he.holds ((S.within hw).executions hr) ((S.within hw).blocks hij) c
  · exact hbody w' hw body List.mem_cons_self
  · cases step with
    | none => exact S.pure trivial
    | some e =>
      exact (he.expression e ((S.within hw).executions hr) ((S.within hw).blocks hij)).bind
        fun _ _ _ _ _ => S.pure trivial

/-- A statement corresponds to itself in paired executions and blocks if its parts do. -/
theorem statementOf {m n : Nat} (hf : S.Fuel m n) {a b c d : Nat}
    (hr : (S.pairing w).executions a b) (hb : (S.pairing w).blocks c d) {st : Stmt} {Inner : S.World → Nat → Nat → Prop}
    (hp : S.Parts e₁ e₂ w a b c d st Inner) :
    S.Rel w (e₁.statement m a c st) (e₂.statement n b d st) S.flow := by
  have h := he.evals hr hb
  cases st with
  | declaration _ how k value =>
    have hdeclare {x y : Run Native} (hx : S.Rel w x y S.native) :
        S.Rel w (do let v ← x; Run.declare c k.text how v; return Flow.normal)
          (do let v ← y; Run.declare d k.text how v; return Flow.normal) S.flow :=
      hx.bind fun w₁ h₁ v v' hv =>
        Rel.bind (hp.declare h₁ k.text List.mem_cons_self how v v' hv) fun _ _ _ _ _ =>
          S.pure .normal
    cases value with
    | none => exact hdeclare (S.pure .undefined)
    | some e => exact hdeclare (he.boundValue hr hb k.text e)
  | function _ => exact S.pure .normal
  | branch _ cond yes no =>
    refine (he.holds hr hb cond).bind fun w₁ h₁ r r' hrr => ?_
    rw [hrr]
    split
    · exact hp.direct w₁ h₁ yes List.mem_cons_self
    · cases no with
      | none => exact S.pure .normal
      | some no => exact hp.direct w₁ h₁ no (.tail _ List.mem_cons_self)
  | whileLoop _ cond body =>
    exact rel_repeatWhile
      (fun w' hw => he.holds ((S.within hw).executions hr) ((S.within hw).blocks hb) cond)
      (fun w' hw => hp.direct w' hw body List.mem_cons_self) (fun w' hw => S.pure trivial) hf
  | forLoop _ start cond step body =>
    refine Rel.bind (hp.newBlock (S.le_refl w)) fun w₁ h₁ i j hij => ?_
    have hbody {w' : S.World} (hw : S.le w w') (hij : Inner w' i j) :
        S.Asks e₁ e₂ w' a b i j [body] := fun w'' hw' st hst =>
      hp.inner hw hij w'' hw' st (List.mem_singleton.1 hst ▸ List.mem_cons_self)
    cases start with
    | none =>
      exact he.loopOf hf ((S.within h₁).executions hr) (hp.blocks hij) cond step (hbody h₁ hij)
    | some st =>
      have hst := hp.inner h₁ hij w₁ (S.le_refl w₁) st (.tail _ List.mem_cons_self)
      refine Rel.bind hst fun w₂ h₂ _ _ _ => ?_
      have h₂' := S.le_trans h₁ h₂
      have hij₂ := hp.mono h₂ hij
      exact he.loopOf hf ((S.within h₂').executions hr) (hp.blocks hij₂) cond step (hbody h₂' hij₂)
  | forOf _ how k items body =>
    refine (h.now items).bind fun w₁ h₁ v v' hv => ?_
    refine S.get fun s t hs => ?_
    refine (rel_ofExcept (R := S.natives) (Native.walk_alike hs hv)).bind fun w₂ h₂ vs vs' hvs => ?_
    have h₂' := S.le_trans h₁ h₂
    refine rel_overItems (fun w₃ h₃ u u' hu => ?_) hvs
    have h₃' := S.le_trans h₂' h₃
    refine Rel.bind (hp.newBlock h₃') fun w₄ h₄ i j hij => ?_
    have h₄' := S.le_trans h₃' h₄
    have hdeclare := hp.declareInner h₄' hij k.text List.mem_cons_self how _ _ (native_mono h₄ hu)
    refine Rel.bind hdeclare fun w₅ h₅ _ _ _ => ?_
    exact hp.inner (S.le_trans h₄' h₅) (hp.mono h₅ hij) w₅ (S.le_refl w₅) body List.mem_cons_self
  | returns _ value =>
    cases value with
    | none => exact S.pure (.returned .undefined)
    | some e => exact (h.now e).bind fun _ _ _ _ hv => S.pure (.returned hv)
  | breaks _ => exact S.pure .broke
  | continues _ => exact S.pure .continued
  | throws _ e =>
    refine (h.now e).bind fun w₁ h₁ v v' hv => S.get fun s t hs => ?_
    rw [Native.thrownText_eq hs hv]
    exact S.fail _
  | block span body =>
    exact Rel.bind (hp.newBlock (S.le_refl w)) fun _ hw _ _ hij =>
      hp.statements hw hij span body rfl
  | expr e => exact (h.now e).bind fun _ _ _ _ _ => S.pure .normal
  | empty _ => exact S.pure .normal

/-! ## Functions and scripts -/

theorem bodyValue (hm : S.PassesFailures) {a b c d : Nat} (hr : (S.pairing w).executions a b)
    (hb : (S.pairing w).blocks c d) {body : Body}
    (h : ∀ sts, body = .block sts →
      S.Rel w (e₁.statements a c sts) (e₂.statements b d sts) S.flow) :
    S.Rel w (e₁.bodyValue a c body) (e₂.bodyValue b d body) S.native := by
  cases body with
  | block body =>
    refine Rel.bind (h body rfl) fun _ _ _ _ hf => ?_
    cases hf with
    | returned hv => exact S.pure hv
    | _ => exact S.pure .undefined
  | expr e => exact hm.mapFailure (Failure.unseen_located _ _) (he.expression e hr hb)

end Supplies

/-- What a script comes to once its statements were run. -/
theorem rel_scriptValue {x y : Run Flow} (h : S.Rel w x y S.flow) :
    S.Rel w (do match ← x with | .returned v => return v | _ => return Native.null)
      (do match ← y with | .returned v => return v | _ => return Native.null) S.native := by
  refine h.bind fun _ _ _ _ hf => ?_
  cases hf with
  | returned hv => exact S.pure hv
  | _ => exact S.pure .null

namespace Responds

variable (he : S.Responds e₁ e₂) (hS : S.Scripting)
include he

theorem asks {a b c d : Nat} (hr : (S.pairing w).executions a b) (hb : (S.pairing w).blocks c d)
    (sts : List Stmt) : S.Asks e₁ e₂ w a b c d sts :=
  fun _ hw st _ => he.statement st ((S.within hw).executions hr) ((S.within hw).blocks hb)

include hS

theorem statements {a b c d : Nat} (hr : (S.pairing w).executions a b)
    (hb : (S.pairing w).blocks c d) (sts : List Stmt) :
    S.Rel w (e₁.statements a c sts) (e₂.statements b d sts) S.flow :=
  rel_statements hS.toPassesFailures hr hb (hS.defines hb _) (he.asks hr hb sts)

/-- Everything that a statement does corresponds, in whatever blocks it is done. -/
theorem parts {a b c d : Nat} (hr : (S.pairing w).executions a b) (hb : (S.pairing w).blocks c d)
    (st : Stmt) : S.Parts e₁ e₂ w a b c d st fun w => (S.pairing w).blocks where
  declare hw name _ how _ _ hv := hS.declare ((S.within hw).blocks hb) name how hv
  direct := he.asks hr hb _
  newBlock hw := S.newBlock (.some ((S.within hw).blocks hb))
  blocks h := h
  mono hw h := (S.within hw).blocks h
  declareInner _ h name _ how _ _ hv := hS.declare h name how hv
  inner hw h := he.asks ((S.within hw).executions hr) h _
  statements hw h _ body _ := he.statements hS ((S.within hw).executions hr) h body

/-- A script corresponds to itself in alike scopes. -/
theorem runScript {s t : Scope Native} (h : Scope.Alike (S.pairing w) (S.native w) s t)
    (maxDepth : Nat) (name : String) (body : List Stmt) :
    S.Rel w (e₁.runScript s maxDepth name body) (e₂.runScript t maxDepth name body) S.native := by
  refine (S.newExecution maxDepth h).bind fun w₁ h₁ a b hab => ?_
  refine (S.newBlock .none).bind fun w₂ h₂ c d hcd => ?_
  exact rel_scriptValue (hS.mapFailure (Failure.unseen_left name)
    (he.statements hS ((S.within h₂).executions hab) hcd body))

/-- What is called corresponds to itself for alike arguments. -/
theorem called {a b c d : Nat} (hr : (S.pairing w).executions a b)
    (hb : (S.pairing w).blocks c d) (f : Function) (name : String) {vs ws : List Native}
    (hv : S.natives w vs ws) :
    S.Rel w (e₁.called a c f name vs) (e₂.called b d f name ws) S.native := by
  refine (S.newBlock (.some hb)).bind fun w₁ h₁ i j hij => ?_
  have hparameters := rel_defineParameters (natives_mono h₁ hv) 0
    (hS.defines hij (f.parameters.map Name.text))
  refine hparameters.bind fun w₂ h₂ _ _ _ => ?_
  have hr₂ := (S.within (S.le_trans h₁ h₂)).executions hr
  have hij₂ := (S.within h₂).blocks hij
  exact hS.mapFailure (Failure.unseen_left name)
    (he.supplies.bodyValue hS.toPassesFailures hr₂ hij₂ fun sts _ => he.statements hS hr₂ hij₂ sts)

omit hS in
theorem invokeOf (hS : S.Thorough) {a b c d : Nat} (hr : (S.pairing w).executions a b)
    (hb : (S.pairing w).blocks c d) (f : Function) (name : String) {vs ws : List Native}
    (hv : S.natives w vs ws) :
    S.Rel w (e₁.invoke a c f name vs) (e₂.invoke b d f name ws) S.native :=
  hS.callDuring hr fun _ hw => he.called hS.toScripting ((S.within hw).executions hr)
    ((S.within hw).blocks hb) f name (natives_mono hw hv)

end Responds
end Simulation
end Workbook
