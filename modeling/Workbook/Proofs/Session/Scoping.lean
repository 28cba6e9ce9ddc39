/-
Names in formulas and in scripts.

Under a name, a formula and a script find the same binding: what is nearest on the way from their
folder to the root, or else what the root binds (`Session.Binds`).  Reading it, both fail alike, or
both get a value, the script the native form of what the formula gets (`lookups_agree`).

The native form may have changed in the meantime.  A formula keeps the containers that its value was
converted to, and a container that is made of another one can be modified before it is frozen;
`formula_and_script_differ` is an example.
-/
import Workbook.Proofs.Session.Binding
import Workbook.Proofs.Session.Conversion

namespace Workbook

/-! ## What a name means -/

/-- A name means what it means in the nearest folder in which it means something. -/
theorem Outline.place?_eq_some {o : Outline} {folder name : String} {p : Place} :
    o.place? folder name = some p ↔ ∃ inner f outer,
      o.enclosing o.folders.length folder = inner ++ f :: outer ∧ o.placeIn? f name = some p ∧
        ∀ g ∈ inner, o.placeIn? g name = none :=
  List.findSome?_eq_some_iff

/-- What a name means in a folder of a session, in the order in which it is looked for. -/
inductive Session.Binds (σ : Session) (place : Nat) (folder name : String) : Option Binding → Prop
  | place {p : Outline.Place} (h : σ.outline.place? folder name = some p) :
      Binds σ place folder name (some (.place p))
  | override {v : Value} (free : σ.outline.place? folder name = none)
      (h : σ.overrides.lookup (Text.lower name) = some v) :
      Binds σ place folder name (some (.value v))
  | time (free : σ.outline.place? folder name = none)
      (override : σ.overrides.lookup (Text.lower name) = none)
      (h : Text.lower name = Text.lower σ.settings.timeVariable) :
      Binds σ place folder name (some (.value (timeValue σ.time)))
  | library (free : σ.outline.place? folder name = none)
      (override : σ.overrides.lookup (Text.lower name) = none)
      (time : Text.lower name ≠ Text.lower σ.settings.timeVariable) (h : Text.lower name = "lib") :
      Binds σ place folder name (some (.value σ.library))
  | math (free : σ.outline.place? folder name = none)
      (override : σ.overrides.lookup (Text.lower name) = none)
      (time : Text.lower name ≠ Text.lower σ.settings.timeVariable) (h : Text.lower name = "math") :
      Binds σ place folder name (some (.value σ.math))
  | importer (i : Nat) (free : σ.outline.place? folder name = none)
      (override : σ.overrides.lookup (Text.lower name) = none)
      (time : Text.lower name ≠ Text.lower σ.settings.timeVariable)
      (h : Text.lower name = "import") :
      Binds σ place folder name
        (some (.value (.function (.typed (.mk i (.importer place folder))))))
  | nothing (free : σ.outline.place? folder name = none)
      (override : σ.overrides.lookup (Text.lower name) = none)
      (time : Text.lower name ≠ Text.lower σ.settings.timeVariable)
      (h : Text.lower name ∉ ["lib", "math", "import"]) : Binds σ place folder name none

/-- A session always comes to what it binds.  At most the function `import` is made anew. -/
theorem Session.binding_run (σ : Session) (place : Nat) (folder name : String) (u : Store) :
    ∃ b u', σ.binding place folder name u = .ok b u' ∧ σ.Binds place folder name b ∧
      ∀ p, b = some (.place p) → u' = u := by
  cases hplace : σ.outline.place? folder name with
  | some p => exact ⟨_, u, Engine.binding_place hplace u, .place hplace, fun _ _ => rfl⟩
  | none =>
    have hbinding : σ.binding place folder name u =
        (do return (← σ.rootBinding place folder name).map .value : Run (Option Binding)) u := by
      unfold Session.binding
      rw [hplace]
    have hroot {v : Option Value} {u' : Store} (h : σ.rootBinding place folder name u = .ok v u') :
        σ.binding place folder name u = .ok (v.map .value) u' := by
      rw [hbinding, Run.bind_run h]
      rfl
    unfold rootBinding at hroot
    cases hover : σ.overrides.lookup (Text.lower name) with
    | some v =>
      simp only [hover] at hroot
      exact ⟨_, u, hroot rfl, .override hplace hover, fun _ _ => rfl⟩
    | none =>
      simp only [hover] at hroot
      by_cases htime : Text.lower name = Text.lower σ.settings.timeVariable
      · rw [if_pos htime] at hroot
        exact ⟨_, u, hroot rfl, .time hplace hover htime, fun _ _ => rfl⟩
      · rw [if_neg htime] at hroot
        by_cases hlib : Text.lower name = "lib"
        · rw [if_pos hlib] at hroot
          exact ⟨_, u, hroot rfl, .library hplace hover htime hlib, fun _ _ => rfl⟩
        · rw [if_neg hlib] at hroot
          by_cases hmath : Text.lower name = "math"
          · rw [if_pos hmath] at hroot
            exact ⟨_, u, hroot rfl, .math hplace hover htime hmath, fun _ _ => rfl⟩
          · rw [if_neg hmath] at hroot
            by_cases himport : Text.lower name = "import"
            · rw [if_pos himport] at hroot
              exact ⟨_, _, hroot rfl, .importer u.fresh hplace hover htime himport,
                fun _ h => nomatch h⟩
            · rw [if_neg himport] at hroot
              refine ⟨_, u, hroot rfl, .nothing hplace hover htime ?_, fun _ _ => rfl⟩
              simp [hlib, hmath, himport]

/-- What a name means in a folder is what it is bound to. -/
theorem Session.Binds.eq_place {σ : Session} {place : Nat} {folder name : String} {p : Outline.Place}
    {b : Option Binding} (h : σ.outline.place? folder name = some p)
    (binds : σ.Binds place folder name b) : b = some (.place p) := by
  cases binds with
  | place h' => exact congrArg (some ∘ Binding.place) (Option.some.inj (h'.symm.trans h))
  | override free _ => cases free.symm.trans h
  | time free _ _ => cases free.symm.trans h
  | library free _ _ _ => cases free.symm.trans h
  | math free _ _ _ => cases free.symm.trans h
  | importer _ free _ _ _ => cases free.symm.trans h
  | nothing free _ _ _ => cases free.symm.trans h

/-! ## What reading comes to -/

/-- How a formula and a script read a name.  Both find nothing, or fail alike, or get the two forms
of a result that is kept, or the script has what the formula gets turned into its native form;
unless the script comes to no end. -/
inductive Engine.ReadAlike (e : Engine) :
    EStateM.Result Stop Store (Option Value) → EStateM.Result Stop Store (Option Native) → Prop
  | nothing (s : Store) : ReadAlike e (.ok none s) (.ok none s)
  | failure {f g : Failure} (s : Store) (message : g.cause.message = f.cause.message)
      (isEngine : g.cause.isEngine = f.cause.isEngine) :
      ReadAlike e (.error (.failed f) s) (.error (.failed g) s)
  | result {place : Nat} {key : String} {x : Outline.Expression} {r : Result} {n : Native}
      {v : Value} {s : Store} (hx : s.expression? place key = some x)
      (hr : s.result? place key = some r) (ho : r.outcome = .value n v)
      (converted : x.language = .script → n.toValue s = .ok v)
      (made : x.language = .formula → ∃ fuel s₀ u,
        (Engine.ofFuel fuel).ask (.native v) s₀ = .ok n u ∧ u.Precedes place s) :
      ReadAlike e (.ok (some v) s) (.ok (some n) s)
  | native {v : Value} {n : Native} {s s' : Store} (h : e.ask (.native v) s = .ok n s') :
      ReadAlike e (.ok (some v) s) (.ok (some n) s')
  | endless {s s' : Store} (q : EStateM.Result Stop Store (Option Value))
      (h : q = .error .exhausted s' ∨ ∃ v, q = .ok (some v) s' ∧
        e.ask (.native v) s' = .error .exhausted s) : ReadAlike e q (.error .exhausted s)

namespace Engine

variable {fuel place : Nat} {u : Store} {σ : Session} {name : String}

theorem readAlike_failure (e : Engine) (f : Failure) (s : Store) :
    e.ReadAlike (.error (.failed f) s)
      (.error (.failed (.ofCause (.fault f.cause.toFault))) s) :=
  .failure s (Cause.message_toFault f.cause) (Cause.isEngine_toFault f.cause)

/-- A script that has a value turned into its native form reads as a formula that gets it. -/
theorem readAlike_native (e : Engine) (total : e.Total) (x : Run Value) (u : Store) :
    e.ReadAlike ((do return some (← x) : Run (Option Value)) u)
      (Run.behindCall
        ((do e.ask (.native (← x)) : Run Native) >>= fun n => pure (some n)) u) := by
  have hnative {q : EStateM.Result Stop Store (Option Native)}
      (h : ((do e.ask (.native (← x)) : Run Native) >>= fun n => pure (some n)) u = q) :
      Run.behindCall ((do e.ask (.native (← x)) : Run Native) >>= fun n => pure (some n)) u =
        Run.behindCall (fun _ => q) u := Run.behindCall_congr h
  cases hx : x u with
  | ok v s =>
    have htyped : (do return some (← x) : Run (Option Value)) u = .ok (some v) s :=
      Run.bind_run hx
    have hscript : (do e.ask (.native (← x)) : Run Native) u = e.ask (.native v) s :=
      Run.bind_run hx
    rw [htyped]
    cases hn : e.ask (.native v) s with
    | ok n s' =>
      rw [hnative (Run.bind_run (hscript.trans hn))]
      exact .native hn
    | error err s' =>
      cases err with
      | failed f => exact absurd hn ((total.native v).ends s f s')
      | exhausted =>
        rw [hnative (Run.bind_error (hscript.trans hn))]
        exact .endless _ (.inr ⟨v, rfl, hn⟩)
  | error err s =>
    have hscript : (do e.ask (.native (← x)) : Run Native) u = .error err s := Run.bind_error hx
    rw [Run.bind_error hx, hnative (Run.bind_error hscript)]
    cases err with
    | failed f => exact readAlike_failure e f s
    | exhausted => exact .endless _ (.inl rfl)

/-- What an expression has come to is read alike. -/
theorem readAlike_evaluate (settled : u.Settled) (hσ : u.sessions[place]? = some σ) {key : String}
    {x : Outline.Expression} (hx : σ.outline.expression? key = some x) :
    (Engine.ofFuel fuel).ReadAlike
      ((Engine.ofFuel fuel).typedFound place name (some (.place (.expression key))) u)
      (Run.behindCall ((Engine.ofFuel fuel).nativeFound place name
        (some (.place (.expression key)))) u) := by
  have hnative {q : EStateM.Result Stop Store (Option Native)}
      (h : (Engine.ofFuel fuel).nativeFound place name (some (.place (.expression key))) u = q) :
      Run.behindCall ((Engine.ofFuel fuel).nativeFound place name
        (some (.place (.expression key)))) u = Run.behindCall (fun _ => q) u :=
    Run.behindCall_congr h
  obtain ⟨a, u', ha⟩ | ⟨u', hexhausted⟩ := evaluate_ends fuel u place key
  · obtain ⟨r, rfl, hr⟩ := evaluate_kept_or_circular hσ hx ha
    have htyped : (Engine.ofFuel fuel).typedBinding place name (.place (.expression key)) u =
        typedOutcome name r.outcome u' := Run.bind_run ha
    have hscript : (Engine.ofFuel fuel).nativeBinding place name (.place (.expression key)) u =
        nativeOutcome name r.outcome u' := Run.bind_run ha
    cases ho : r.outcome with
    | failure first more =>
      rw [ho] at htyped hscript
      have hfound : (Engine.ofFuel fuel).typedFound place name (some (.place (.expression key))) u =
          .error (.failed (.ofCause (Formula.failedRead name first.kind.name first.message))) u' :=
        Run.bind_error htyped
      rw [hfound, hnative (Run.bind_error hscript)]
      exact readAlike_failure _ _ u'
    | value n v =>
      rw [ho] at htyped hscript
      have hfound : (Engine.ofFuel fuel).typedFound place name (some (.place (.expression key))) u =
          .ok (some v) u' := Run.bind_run htyped
      rw [hfound, hnative (Run.bind_run hscript)]
      obtain hr | ⟨-, hcircular⟩ := hr
      · obtain ⟨τ, hτ, hστ⟩ := (precedes_ask fuel (.value ha) place).session σ hσ
        have hx' : u'.expression? place key = some x := by
          rw [Store.expression?_of_outline hτ, hστ.outline]
          exact hx
        have settled' : u'.Settled := settled.evaluate (.value ha)
        exact .result hx' hr ho (fun script => settled'.founded.toValue hx' script hr ho)
          fun formula => settled'.founded.made hx' formula hr ho
      · cases ho.symm.trans hcircular
  · have hfound : (Engine.ofFuel fuel).typedFound place name (some (.place (.expression key))) u =
        .error .exhausted u' := Run.bind_error (Run.bind_error hexhausted)
    rw [hfound, hnative (Run.bind_error (Run.bind_error hexhausted))]
    exact .endless _ (.inl rfl)

end Engine

/-- Formulas and scripts read names alike.  In a folder of a session, they find the same binding
under a name, the one that the session has for it; a script is told that there is one exactly if
there is.  Both fail with the same message, and both are failures of the engine or neither is; or
the script gets a native form of the value that the formula gets.  Of a kept result this is the form
that is kept with it: what a script has computed is converted to what formulas get, and of what a
formula has computed the native form was made at the time. -/
theorem lookups_agree {fuel : Nat} {u : Store} (settled : u.Settled) {place : Nat} {σ : Session}
    (hσ : u.sessions[place]? = some σ) (alive : σ.alive = true) (folder name : String) :
    ∃ b u', σ.Binds place folder name b ∧
      (∀ known : Fields, Script.Global.isName name = false → known.lookup name = none →
        Run.isBound (.folder place folder) known name u = .ok b.isSome u') ∧
      (Engine.ofFuel fuel).lookUp (.folder place folder) name u =
        (Engine.ofFuel fuel).typedFound place name b u' ∧
      (Engine.ofFuel fuel).folderName place folder name u =
        Run.behindCall ((Engine.ofFuel fuel).nativeFound place name b) u' ∧
      (Engine.ofFuel fuel).ReadAlike ((Engine.ofFuel fuel).lookUp (.folder place folder) name u)
        ((Engine.ofFuel fuel).folderName place folder name u) := by
  obtain ⟨b, u', hb, hbinds, hplace⟩ := σ.binding_run place folder name u
  have htyped := Engine.lookUp_bound (e := Engine.ofFuel fuel) hσ alive hb
  have hnative := Engine.folderName_bound (e := Engine.ofFuel fuel) hσ alive hb
  refine ⟨b, u', hbinds, fun known hglobal hknown => ?_, htyped, hnative, ?_⟩
  · have hthere : Run.session? place u = .ok (some σ) u := by
      show EStateM.Result.ok ((u.sessions[place]?).filter (·.alive)) u = _
      rw [hσ, Option.filter_some, if_pos alive]
    unfold Run.isBound
    simp only [hglobal, hknown, Option.isSome_none, Bool.or_self, Bool.false_eq_true, if_false]
    rw [Run.bind_run hthere]
    simp only
    rw [Run.bind_run hb]
    rfl
  · rw [htyped, hnative]
    match b with
    | none => exact .nothing u'
    | some (.place (.expression key)) =>
      obtain rfl := hplace _ rfl
      cases hbinds with
      | place hkey =>
        obtain ⟨x, hx⟩ := Outline.expression?_of_place? hkey
        exact Engine.readAlike_evaluate settled hσ hx
    | some (.place (.folder key)) =>
      exact Engine.readAlike_native _ (Engine.total_ofFuel fuel)
        ((Engine.ofFuel fuel).typedBinding place name (.place (.folder key))) u'
    | some (.value v) =>
      exact Engine.readAlike_native _ (Engine.total_ofFuel fuel)
        ((Engine.ofFuel fuel).typedBinding place name (.value v)) u'

/-! ## A container that changes while a formula has a value -/

/-- A script that returns two functions, which read and extend an array, a formula `f` with what the
array is and a folder in which a formula extends it, and a script that reads `f`. -/
def growing : Tree :=
  ⟨[("", some [⟨.expression, "s", 1, some .script⟩, ⟨.folder, "d", 2, none⟩,
      ⟨.expression, "f", 3, some .formula⟩, ⟨.expression, "r", 4, some .script⟩]),
      ("d", some [⟨.expression, "m", 5, some .formula⟩])],
    [("s", some "const c = [true]; return { get: () => c, push: () => c.push(true) === 2 }"),
      ("f", some "{ x: s.get(), y: d }"), ("r", some "return f"), ("d/m", some "s.push()")], 5⟩

theorem ofTree_growing : Outline.ofTree growing =
    ⟨[Outline.root, ⟨"d", "d", ["d"], 2, some ""⟩],
      [⟨"s", "s", ["s"], .script, 1, ""⟩, ⟨"f", "f", ["f"], .formula, 3, ""⟩,
        ⟨"r", "r", ["r"], .script, 4, ""⟩, ⟨"d/m", "m", ["d", "m"], .formula, 5, "d"⟩]⟩ :=
  (Outline.ofTree_of_folder rfl (by decide) rfl rfl (by decide) rfl).trans rfl

/-- In the folder, formulas and scripts find the formula of the root under its name, in capitals. -/
theorem growing_names : ∃ u',
    Run.isBound (.folder 0 "d") [] "F" (Store.empty.opened growing ⟨.standard, [], []⟩ 0) =
      .ok true u' ∧
    (Engine.ofFuel 24).lookUp (.folder 0 "d") "F"
        (Store.empty.opened growing ⟨.standard, [], []⟩ 0) =
      (Engine.ofFuel 24).typedFound 0 "F" (some (.place (.expression "f"))) u' ∧
    (Engine.ofFuel 24).folderName 0 "d" "F" (Store.empty.opened growing ⟨.standard, [], []⟩ 0) =
      Run.behindCall ((Engine.ofFuel 24).nativeFound 0 "F" (some (.place (.expression "f")))) u' := by
  have settled := Store.settled_of_comes Store.settled_empty
    ((Engine.ofFuel 24).comes_opened .empty growing ⟨.standard, [], []⟩ 0 .nil)
  have hplace : (Outline.ofTree growing).place? "d" "F" = some (.expression "f") := by
    rw [ofTree_growing]
    decide
  obtain ⟨b, u', hbinds, hbound, htyped, hscript, -⟩ := lookups_agree settled
    (Store.session_opened .empty growing ⟨.standard, [], []⟩ 0) rfl "d" "F"
  obtain rfl := hbinds.eq_place hplace
  exact ⟨u', hbound [] (by decide) rfl, htyped, hscript⟩

/-- The number of items in the list that is the first entry of a mapping. -/
def Value.firstLength? : Value → Option Nat
  | .mapping ((_, .ready (.list items _)) :: _) _ => some items.length
  | _ => none

/-- In a store that queries lead to, what a formula reads under a name, and what a script reads
there.  The native form of the one is converted to a list of one item, the other to two. -/
structure Engine.ReadsShorter (e : Engine) (t : Store) (name : String) (v w w' : Value)
    (n m : Native) (u s u' : Store) : Prop where
  comes : e.Comes .empty t
  typed : e.lookUp (.folder 0 "") name t = .ok (some v) u
  script : e.folderName 0 "" name t = .ok (some n) s
  native : e.ask (.native v) u = .ok m u'
  back : m.toValue u' = .ok w
  converted : n.toValue s = .ok w'
  one : w.firstLength? = some 1
  two : w'.firstLength? = some 2

/-- Whether this is what formulas and scripts read. -/
def Engine.readsShorter (e : Engine) (t : Store) (name : String) : Bool :=
  match e.lookUp (.folder 0 "") name t, e.folderName 0 "" name t with
  | .ok (some v) u, .ok (some n) s =>
    match e.ask (.native v) u with
    | .ok m u' =>
      match m.toValue u', n.toValue s with
      | .ok w, .ok w' => decide (w.firstLength? = some 1 ∧ w'.firstLength? = some 2)
      | _, _ => false
    | _ => false
  | _, _ => false

theorem Engine.readsShorter_eq_true {e : Engine} {t : Store} {name : String}
    (comes : e.Comes .empty t) (h : e.readsShorter t name = true) :
    ∃ v w w' n m u s u', e.ReadsShorter t name v w w' n m u s u' := by
  unfold readsShorter at h
  split at h
  · rename_i v u n s htyped hscript
    split at h
    · rename_i m u' hnative
      split at h
      · rename_i w w' hback hconverted
        obtain ⟨one, two⟩ := of_decide_eq_true h
        exact ⟨v, w, w', n, m, u, s, u', comes, htyped, hscript, hnative, hback, hconverted, one,
          two⟩
      · cases h
    · cases h
  · cases h

theorem growing_reads :
    (match (Engine.ofFuel 24).query 0 (.expression "r")
        (Store.empty.opened growing ⟨.standard, [], []⟩ 0) with
      | .ok _ t => (Engine.ofFuel 24).readsShorter t "f"
      | _ => false) = true := by
  have hr : pathKey "r" = "r" := pathKey_of_name (by decide) (by decide)
  unfold Engine.query Store.opened Store.opening Session.start
  rw [ofTree_growing]
  simp only [hr]
  decide +kernel

/-- What a formula and a script read under a name may differ.  While the native form of the value of
`f` is being made, the formula in the folder extends the array that the value was converted from. -/
theorem formula_and_script_differ : ∃ (t : Store) (v w w' : Value) (n m : Native) (u s u' : Store),
    (Engine.ofFuel 24).ReadsShorter t "f" v w w' n m u s u' := by
  have hrun := growing_reads
  split at hrun
  case h_2 => cases hrun
  case h_1 a t h =>
    have hopened := (Engine.ofFuel 24).comes_opened .empty growing ⟨.standard, [], []⟩ 0 .nil
    exact ⟨t, Engine.readsShorter_eq_true (hopened.query h) hrun⟩

end Workbook
