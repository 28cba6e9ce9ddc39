/-
Names and formulas correspond.

A name of a formula is looked for in the scope that its evaluation belongs to, and what
it means is read by asking the engine for an expression or a folder.  From that, by the
cases of an expression, a formula corresponds to itself in paired evaluations with alike
names around it.
-/
import Workbook.Proofs.Simulation.Member

open List (Forall₂)

namespace Workbook
namespace Simulation

open Formula

variable {S : Simulation} {e₁ e₂ : Engine} {w : S.World}

/-! ## Sessions and bindings -/

/-- Two meanings of a name. -/
inductive BindingAlike (p : Pairing) : Binding → Binding → Prop
  | place (place : Outline.Place) : BindingAlike p (.place place) (.place place)
  | value {v w : Value} (h : Value.Alike p v w) : BindingAlike p (.value v) (.value w)

theorem timeValue_alike {p : Pairing} (x : Float) :
    Value.Alike p (timeValue x) (timeValue x) := by
  unfold timeValue
  split
  · exact .null
  · split
    · exact .integer _
    · exact .float x

theorem rel_session {a b : Nat} (h : (S.pairing w).sessions a b) :
    S.Rel w (Run.session a) (Run.session b) fun w => Session.Alike (S.pairing w) := by
  refine (S.session? h).bind fun w₁ h₁ x y hxy => ?_
  cases hxy with
  | none => exact S.fail _
  | some hs => exact S.pure hs

theorem rel_rootBinding {s t : Session} (hs : Session.Alike (S.pairing w) s t) {a b : Nat}
    (h : (S.pairing w).sessions a b) (folder name : String) :
    S.Rel w (s.rootBinding a folder name) (t.rootBinding b folder name) (S.optional S.value) := by
  have ho := Keyed.lookup_alike hs.overrides (Text.lower name)
  unfold Session.rootBinding
  simp only
  generalize s.overrides.lookup (Text.lower name) = x at ho ⊢
  generalize t.overrides.lookup (Text.lower name) = y at ho ⊢
  cases ho with
  | some hv => exact S.pure (.some hv)
  | none =>
    simp only [hs.timeVariable, hs.time]
    split
    · exact S.pure (.some (timeValue_alike _))
    · split
      · exact S.pure (.some hs.library)
      · split
        · exact S.pure (.some hs.math)
        · split
          · exact (rel_newTyped (.importer folder h)).bind fun _ _ _ _ hf => S.pure (.some hf)
          · exact S.pure .none

theorem rel_binding {s t : Session} (hs : Session.Alike (S.pairing w) s t) {a b : Nat}
    (h : (S.pairing w).sessions a b) (folder name : String) :
    S.Rel w (s.binding a folder name) (t.binding b folder name)
      (S.optional fun w => BindingAlike (S.pairing w)) := by
  unfold Session.binding
  rw [hs.place]
  split
  · exact S.pure (.some (.place _))
  · exact (rel_rootBinding hs h folder name).bind fun _ _ _ _ hv =>
      S.pure (optional_map hv fun _ _ hv => .value hv)

theorem rel_typedOutcome (name : String) {o o' : Outcome}
    (h : Outcome.Alike (S.pairing w) o o') :
    S.Rel w (Engine.typedOutcome name o) (Engine.typedOutcome name o') S.value := by
  cases h with
  | value _ hv => exact S.pure hv
  | failure first more => exact S.fail _

theorem rel_nativeOutcome (name : String) {o o' : Outcome}
    (h : Outcome.Alike (S.pairing w) o o') :
    S.Rel w (Engine.nativeOutcome name o) (Engine.nativeOutcome name o') S.native := by
  cases h with
  | value hn _ => exact S.pure hn
  | failure first more => exact S.fail _

/-! ## Operators -/

theorem rel_condition (operator : String) {v v' : Value} (h : S.value w v v') :
    S.Rel w (Engine.condition operator v) (Engine.condition operator v') S.equal := by
  cases h with
  | boolean b => exact S.pure rfl
  | null => exact S.pure rfl
  | error kind message _ => exact S.fail _
  | _ => exact rel_mismatch rfl

theorem rel_arithmetic (op : Arithmetic) {a a' b b' : Value} (ha : S.value w a a')
    (hb : S.value w b b') :
    S.Rel w (Run.ofExcept (arithmetic op a b)) (Run.ofExcept (arithmetic op a' b')) S.value :=
  rel_ofExcept ((arithmetic_same op ha hb).imp fun _ _ h => h.alike)

theorem rel_compared (op : Formula.BinaryOp) (holds : Ordering → Bool) {a a' b b' : Value}
    (ha : S.value w a a') (hb : S.value w b b') :
    S.Rel w (Engine.compared op holds a b) (Engine.compared op holds a' b') S.value := by
  unfold Engine.compared
  rw [compare?_eq ha hb, ha.typeName_eq, hb.typeName_eq]
  split
  · exact S.pure (.boolean _)
  · exact rel_mismatch rfl

theorem bindParameters_alike {p : Pairing} (parameters : List String) {vs ws : List Value}
    (hv : Forall₂ (Value.Alike p) vs ws) {ls ms : List (String × Value)}
    (hl : Forall₂ (Keyed.Alike (Value.Alike p)) ls ms) :
    Forall₂ (Keyed.Alike (Value.Alike p)) (Engine.bindParameters parameters vs ls)
      (Engine.bindParameters parameters ws ms) := by
  unfold Engine.bindParameters
  generalize (List.range parameters.length).zip parameters = ps
  induction ps generalizing ls ms with
  | nil => exact hl
  | cons e ps ih =>
    exact ih (.cons (.mk e.2 (optional_getD (getElem?_alike hv e.1) .null)) hl)

/-- Two ways to evaluate the parts of an expression, from a world on. -/
def Evals (S : Simulation) (w : S.World) {α β : Type} (R : S.World → β → β → Prop)
    (f g : α → Run β) : Prop :=
  ∀ w', S.le w w' → ∀ a, S.Rel w' (f a) (g a) R

theorem Evals.mono {α β : Type} {R : S.World → β → β → Prop} {f g : α → Run β} {w' : S.World}
    (h : S.Evals w R f g) (hw : S.le w w') : S.Evals w' R f g :=
  fun w'' hw' a => h w'' (S.le_trans hw hw') a

theorem Evals.now {α β : Type} {R : S.World → β → β → Prop} {f g : α → Run β}
    (h : S.Evals w R f g) (a : α) : S.Rel w (f a) (g a) R :=
  h w (S.le_refl w) a

/-- The values of a list of arguments. -/
theorem rel_arguments {f g : Formula.Expr → Run Value} (h : S.Evals w S.value f g)
    (es : List Formula.Expr) : S.Rel w (es.mapM f) (es.mapM g) S.values :=
  rel_mapM (A := S.equal) (T := S.value) (fun _ _ _ h => h) value_mono
    (fun w' hw _ _ hab => hab ▸ h w' hw _) (List.forall₂_same.2 fun _ _ => rfl)

/-- Calls of lambdas correspond that belong to paired evaluations. -/
def Lambdas (S : Simulation) (e₁ e₂ : Engine) : Prop :=
  ∀ {w a b ls ms vs ws} (parameters : List String) (body : Formula.Expr),
    (S.pairing w).evaluations a b → S.locals w ls ms → S.values w vs ws →
    S.Rel w (e₁.callLambda a ls parameters body vs) (e₂.callLambda b ms parameters body ws) S.value

namespace Answers

variable (he : S.Answers e₁ e₂)
include he

/-! ## Names -/

theorem typedBinding {a b : Nat} (h : (S.pairing w).sessions a b) (name : String) {x y : Binding}
    (hb : BindingAlike (S.pairing w) x y) :
    S.Rel w (e₁.typedBinding a name x) (e₂.typedBinding b name y) S.value := by
  cases hb with
  | value hv => exact S.pure hv
  | place place =>
    cases place with
    | expression key => exact he.typedRead name key h
    | folder key =>
      exact (he.folderValue key h).bind fun w₁ h₁ v v' hv => rel_checkedRead name hv

theorem nativeBinding {a b : Nat} (h : (S.pairing w).sessions a b) (name : String) {x y : Binding}
    (hb : BindingAlike (S.pairing w) x y) :
    S.Rel w (e₁.nativeBinding a name x) (e₂.nativeBinding b name y) S.native := by
  have ht := (he.typedBinding h name hb).bind fun w₁ h₁ v v' hv => he.native hv
  cases hb with
  | value hv => exact ht
  | place place =>
    cases place with
    | expression key => exact he.nativeRead name key h
    | folder key => exact ht

theorem lookUp {s t : Scope Value} (h : Scope.Alike (S.pairing w) (S.value w) s t)
    (name : String) :
    S.Rel w (e₁.lookUp s name) (e₂.lookUp t name) (S.optional S.value) := by
  cases h with
  | fixed hb =>
    unfold Engine.lookUp
    simp only
    split
    · exact rel_newMath.bind fun _ _ _ _ hv => S.pure (.some hv)
    · have hl := Keyed.lookup_alike hb name
      generalize List.lookup name _ = x at hl ⊢
      generalize List.lookup name _ = y at hl ⊢
      cases hl with
      | none => exact S.pure .none
      | some hx =>
        cases hx with
        | ok hv => exact S.pure (.some hv)
        | error f => exact rel_fault f
  | folder key hs =>
    refine (rel_session hs).bind fun w₁ h₁ s s' hss => ?_
    have hs₁ := (S.within h₁).sessions hs
    refine (rel_binding hss hs₁ key name).bind fun w₂ h₂ x y hxy => ?_
    cases hxy with
    | none => exact S.pure .none
    | some hb =>
      exact (he.typedBinding ((S.within h₂).sessions hs₁) name hb).bind fun _ _ _ _ hv =>
        S.pure (.some hv)

theorem nameValue {a b : Nat} (h : (S.pairing w).evaluations a b) {ls ms : List (String × Value)}
    (hl : S.locals w ls ms) (name : String) :
    S.Rel w (e₁.nameValue a ls name) (e₂.nameValue b ms name) S.value := by
  have hv := Keyed.lookup_alike hl name
  unfold Engine.nameValue
  generalize List.lookup name ls = x at hv ⊢
  generalize List.lookup name ms = y at hv ⊢
  cases hv with
  | some hv => exact S.pure hv
  | none =>
    refine S.get fun s t hst => ?_
    have hev := hst.evaluation h
    generalize s.evaluations[a]? = x at hev ⊢
    generalize t.evaluations[b]? = y at hev ⊢
    cases hev with
    | none => exact S.fail _
    | some hsc =>
      refine (he.lookUp hsc name).bind fun w₁ h₁ v v' hv => ?_
      cases hv with
      | none => exact S.fail _
      | some hv => exact S.pure hv

/-! ## Operators -/

theorem add {a a' b b' : Value} (ha : S.value w a a') (hb : S.value w b b') :
    S.Rel w (e₁.add a b) (e₂.add a' b') S.value := by
  have hadd := rel_arithmetic (S := S) .add ha hb
  have hta := he.text false ha
  have htb := he.text false hb
  cases hb with
  | error k m hp =>
    cases ha <;> exact hadd
  | string t =>
    cases ha with
    | string s => exact S.pure (.string _)
    | error k m hp => exact hadd
    | _ => exact hta.bind fun _ _ _ _ ht => S.pure (ht ▸ .string _)
  | _ =>
    cases ha with
    | string s => exact htb.bind fun _ _ _ _ ht => S.pure (ht ▸ .string _)
    | _ => exact hadd

theorem applyBinary (op : Formula.BinaryOp) {a a' b b' : Value} (ha : S.value w a a')
    (hb : S.value w b b') :
    S.Rel w (e₁.applyBinary op a b) (e₂.applyBinary op a' b') S.value := by
  cases op with
  | add => exact he.add ha hb
  | sub | mul | div | mod => exact rel_arithmetic _ ha hb
  | eq | notEq => exact (he.equal ha hb).bind fun _ _ _ _ h => S.pure (h ▸ .boolean _)
  | less | greater | lessEq | greaterEq => exact rel_compared _ _ ha hb
  | and | or => exact rel_mismatch rfl

theorem applyCallee (callee : Formula.Expr) {f g : Value} (hf : S.value w f g)
    {vs ws : List Value} (hv : S.values w vs ws) :
    S.Rel w (e₁.applyCallee callee f vs) (e₂.applyCallee callee g ws) S.value := by
  cases hf with
  | function hf => exact he.call hf hv
  | _ => exact rel_mismatch rfl

/-! ## Parts of expressions -/

theorem piecesText {f g : Formula.Expr → Run Value} (h : S.Evals w S.value f g)
    (ps : List (Piece Formula.Expr)) :
    S.Rel w (e₁.piecesText f ps) (e₂.piecesText g ps) S.equal := by
  induction ps generalizing w with
  | nil => exact S.pure rfl
  | cons p ps ih =>
    cases p with
    | text s => exact (ih h).bind fun _ _ _ _ ht => S.pure (ht ▸ rfl)
    | hole e =>
      refine (h.now e).bind fun w₁ h₁ v v' hv => ?_
      refine (he.text false hv).bind fun w₂ h₂ t t' ht => ?_
      refine (ih (h.mono (S.le_trans h₁ h₂))).bind fun w₃ h₃ ts ts' hts => ?_
      rw [ht, hts]
      exact S.pure rfl

omit he in
theorem listItems {f g : Formula.Expr → Run Value} (h : S.Evals w S.value f g)
    (is : List (Item Formula.Expr)) :
    S.Rel w (Engine.listItems f is) (Engine.listItems g is) S.values := by
  induction is generalizing w with
  | nil => exact S.pure .nil
  | cons i is ih =>
    cases i with
    | one e =>
      refine (h.now e).bind fun w₁ h₁ v v' hv => ?_
      refine (ih (h.mono h₁)).bind fun w₂ h₂ vs vs' hvs => ?_
      exact S.pure (.cons (value_mono h₂ hv) hvs)
    | spread e =>
      refine (h.now e).bind fun w₁ h₁ v v' hv => ?_
      -- The items that are spread, and then the items after them.
      have hrest {vs vs' : List Value} (hvs : S.values w₁ vs vs') :
          S.Rel w₁
            (do return vs ++ (← Engine.listItems f is))
            (do return vs' ++ (← Engine.listItems g is)) S.values :=
        (ih (h.mono h₁)).bind fun w₂ h₂ us us' hus =>
          S.pure (List.rel_append (values_mono h₂ hvs) hus)
      cases hv with
      | list items _ => exact hrest items
      | null => exact hrest .nil
      | _ =>
        exact (rel_mismatch (R := S.values) rfl).bind fun w₂ h₂ _ _ hvs =>
          (ih (h.mono (S.le_trans h₁ h₂))).bind fun w₃ h₃ us us' hus =>
            S.pure (List.rel_append (values_mono h₃ hvs) hus)

omit he in
/-- The entries that are added, and then the entries after them. -/
theorem spreadEntries {f g : Formula.Expr → Run Value} {out out' : Entries}
    (ho : S.entries w out out') {es : List (Entry Formula.Expr)}
    (hrest : ∀ {w' : S.World}, S.le w w' → ∀ {out out' : Entries}, S.entries w' out out' →
      S.Rel w' (e₁.recordEntries f out es) (e₂.recordEntries g out' es) S.entries)
    {x y : Run (List (String × Value))} (hx : S.Rel w x y S.locals) :
    S.Rel w
      (do
        let added ← x
        e₁.recordEntries f (added.foldl (fun out (k, v) => Entries.set k (.ready v) out) out) es)
      (do
        let added ← y
        e₂.recordEntries g (added.foldl (fun out (k, v) => Entries.set k (.ready v) out) out') es)
      S.entries :=
  hx.bind fun _ h₁ _ _ hl => hrest h₁ (Entries.setAll_alike hl (entries_mono h₁ ho))

theorem recordEntries {f g : Formula.Expr → Run Value} (h : S.Evals w S.value f g)
    {out out' : Entries} (ho : S.entries w out out') (es : List (Entry Formula.Expr)) :
    S.Rel w (e₁.recordEntries f out es) (e₂.recordEntries g out' es) S.entries := by
  induction es generalizing out out' w with
  | nil => exact S.pure ho
  | cons e es ih =>
    cases e with
    | field k e =>
      refine (h.now e).bind fun w₁ h₁ v v' hv => ?_
      exact ih (h.mono h₁) (Entries.set_alike (entries_mono h₁ ho) k.text (.ready hv))
    | spread e =>
      refine (h.now e).bind fun w₁ h₁ v v' hv => ?_
      have hrest {x y : Run (List (String × Value))} (hx : S.Rel w₁ x y S.locals) :=
        spreadEntries (entries_mono h₁ ho) (fun h₂ _ _ => ih (h.mono (S.le_trans h₁ h₂))) hx
      cases hv with
      | mapping entries _ => exact hrest (he.readAll entries)
      | null => exact hrest (S.pure .nil)
      | _ => exact hrest (rel_mismatch rfl)

/-! ## Expressions -/

/-- A formula corresponds to itself in paired evaluations. -/
theorem formulaOf {a b : Nat} (h : (S.pairing w).evaluations a b) {ls ms : List (String × Value)}
    (hl : S.locals w ls ms) (e : Formula.Expr) :
    S.Rel w (e₁.formula a ls e) (e₂.formula b ms e) S.value := by
  have hev : S.Evals w S.value (fun e => e₁.ask (.formula a ls e))
      (fun e => e₂.ask (.formula b ms e)) :=
    fun w' hw e => he.formula e ((S.within hw).evaluations h) (locals_mono hw hl)
  cases e with
  | null => exact S.pure .null
  | boolean _ b => exact S.pure (.boolean b)
  | integer _ n => exact S.pure (.integer n)
  | big _ digits => exact S.pure (Value.ofInt_alike _)
  | float _ x => exact S.pure (.float x)
  | string _ s => exact S.pure (.string s)
  | interpolation _ pieces =>
    exact (he.piecesText hev pieces).bind fun _ _ _ _ ht => S.pure (ht ▸ .string _)
  | list _ items => exact (listItems hev items).bind fun _ _ _ _ hv => S.pure (Value.ofItems_alike hv)
  | record _ entries =>
    exact (he.recordEntries hev .nil entries).bind fun _ _ _ _ hv => S.pure (Value.ofEntries_alike hv)
  | name _ s => exact he.nameValue h hl s
  | member _ object k => exact (hev.now object).bind fun _ _ _ _ hv => he.member hv k.text
  | index _ object k =>
    refine (hev.now object).bind fun w₁ h₁ v v' hv => ?_
    exact (hev w₁ h₁ k).bind fun w₂ h₂ i i' hi => he.item (value_mono h₂ hv) hi
  | call _ callee arguments =>
    refine (hev.now callee).bind fun w₁ h₁ f g hf => ?_
    exact (rel_arguments (hev.mono h₁) arguments).bind fun w₂ h₂ vs vs' hv =>
      he.applyCallee callee (value_mono h₂ hf) hv
  | binary _ op left right =>
    have hop : S.Rel w
        (do
          let a ← e₁.ask (.formula a ls left)
          e₁.applyBinary op a (← e₁.ask (.formula _ ls right)))
        (do
          let a ← e₂.ask (.formula b ms left)
          e₂.applyBinary op a (← e₂.ask (.formula _ ms right))) S.value :=
      (hev.now left).bind fun w₁ h₁ v v' hv => (hev w₁ h₁ right).bind fun w₂ h₂ u u' hu =>
        he.applyBinary op (value_mono h₂ hv) hu
    cases op with
    | and =>
      refine (hev.now left).bind fun w₁ h₁ v v' hv => ?_
      refine (rel_condition "and" hv).bind fun w₂ h₂ c c' hc => ?_
      rw [hc]
      split
      · refine (hev w₂ (S.le_trans h₁ h₂) right).bind fun w₃ h₃ u u' hu => ?_
        exact (rel_condition "and" hu).bind fun w₄ h₄ d d' hd => S.pure (hd ▸ .boolean _)
      · exact S.pure (.boolean _)
    | or =>
      refine (hev.now left).bind fun w₁ h₁ v v' hv => ?_
      refine (rel_condition "or" hv).bind fun w₂ h₂ c c' hc => ?_
      rw [hc]
      split
      · exact S.pure (.boolean _)
      · refine (hev w₂ (S.le_trans h₁ h₂) right).bind fun w₃ h₃ u u' hu => ?_
        exact (rel_condition "or" hu).bind fun w₄ h₄ d d' hd => S.pure (hd ▸ .boolean _)
    | _ => exact hop
  | unary _ op operand =>
    cases op with
    | neg =>
      exact (hev.now operand).bind fun w₁ h₁ v v' hv =>
        rel_ofExcept ((negate_same hv).imp fun _ _ h => h.alike)
    | not =>
      refine (hev.now operand).bind fun w₁ h₁ v v' hv => ?_
      exact (rel_condition "not" hv).bind fun w₂ h₂ c c' hc => S.pure (hc ▸ .boolean _)
  | coalesce _ left right =>
    refine (hev.now left).bind fun w₁ h₁ v v' hv => ?_
    simp only [hv.isNull_eq]
    split
    · exact hev w₁ h₁ right
    · exact S.pure hv
  | branch _ c yes no =>
    refine (hev.now c).bind fun w₁ h₁ v v' hv => ?_
    refine (rel_condition "if" hv).bind fun w₂ h₂ r r' hr => ?_
    rw [hr]
    split
    · exact hev w₂ (S.le_trans h₁ h₂) yes
    · exact hev w₂ (S.le_trans h₁ h₂) no
  | binding _ k value body =>
    refine (hev.now value).bind fun w₁ h₁ v v' hv => ?_
    exact he.formula body ((S.within h₁).evaluations h) (.cons (.mk k.text hv) (locals_mono h₁ hl))
  | lambda _ parameters body => exact rel_newTyped (.lambda _ body h hl)
  | parenthesized _ inner => exact hev.now inner

/-! ## Calls -/

theorem callLambda (hS : S.Thorough) : S.Lambdas e₁ e₂ := fun parameters body h hl hv =>
  hS.callWithin h fun _ hw => he.formula body ((S.within hw).evaluations h)
    (bindParameters_alike parameters (values_mono hw hv) (locals_mono hw hl))

/-- A formula corresponds to itself in alike scopes. -/
theorem runFormula {s t : Scope Value} (h : Scope.Alike (S.pairing w) (S.value w) s t)
    (maxDepth : Nat) (e : Formula.Expr) :
    S.Rel w (e₁.runFormula s maxDepth e) (e₂.runFormula t maxDepth e) S.value :=
  (S.newEvaluation maxDepth h).bind fun _ _ _ _ hab => he.formula e hab .nil

end Answers
end Simulation
end Workbook
