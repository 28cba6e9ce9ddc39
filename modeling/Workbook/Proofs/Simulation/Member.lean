/-
Members, methods and functions of alike values correspond.

A method or a function of the library asks the engine for the texts and native forms of
its arguments and calls the functions among them; all else that it does depends on the
arguments only up to alikeness.
-/
import Workbook.Proofs.Simulation.Value

open List (Forall₂)

namespace Workbook
namespace Simulation

open Formula

variable {S : Simulation} {e₁ e₂ : Engine} {w : S.World}

/-! ## Making functions -/

theorem rel_newFunctions {w : S.World} : ∀ fs : List (String × TypedCode),
    (∀ f ∈ fs, ∀ w : S.World, TypedCode.Alike (S.pairing w) f.2 f.2) →
    S.Rel w (newFunctions fs) (newFunctions fs) S.entries
  | [], _ => S.pure .nil
  | (k, code) :: rest, h => by
    refine (rel_newTyped (h _ (.head _) w)).bind fun w₁ h₁ f f' hf => ?_
    refine (rel_newFunctions rest fun g hg => h g (.tail _ hg)).bind fun w₂ h₂ es es' hes => ?_
    exact S.pure (.cons (.mk k (.ready (value_mono h₂ hf))) hes)

theorem rel_newMath : S.Rel w newMath newMath S.value := by
  refine (rel_newFunctions _ ?_).bind fun w₁ h₁ es es' hes => ?_
  · intro f hf w
    obtain ⟨g, _, rfl⟩ := List.mem_map.1 hf
    exact .math g
  · refine S.pure (Value.ofEntries_alike (List.rel_append ?_ hes))
    exact .cons (.mk _ (.ready (.float _))) (.cons (.mk _ (.ready (.float _)))
      (.cons (.mk _ (.ready (.float _))) .nil))

theorem rel_newLibrary : S.Rel w newLibrary newLibrary S.value := by
  refine (rel_newFunctions _ ?_).bind fun w₁ h₁ es es' hes => S.pure (Value.ofEntries_alike hes)
  intro f hf w
  obtain ⟨g, _, rfl⟩ := List.mem_map.1 hf
  exact .library g

/-! ## Failed values -/

theorem rel_checkedRead (name : String) {v v' : Value} (h : S.value w v v') :
    S.Rel w (checkedRead name v) (checkedRead name v') S.value := by
  cases h with
  | error kind message _ => exact S.fail _
  | null => exact S.pure .null
  | boolean b => exact S.pure (.boolean b)
  | integer n => exact S.pure (.integer n)
  | float x => exact S.pure (.float x)
  | big n => exact S.pure (.big n)
  | string s => exact S.pure (.string s)
  | date n => exact S.pure (.date n)
  | bytes hb => exact S.pure (.bytes hb)
  | list items origin => exact S.pure (.list items origin)
  | mapping entries origin => exact S.pure (.mapping entries origin)
  | function hf => exact S.pure (.function hf)
  | signal marker => exact S.pure (.signal marker)

theorem rel_noMember {α : Type} {R : S.World → α → α → Prop} {v v' : Value} (h : S.value w v v')
    (name : String) : S.Rel w (Engine.noMember v name) (Engine.noMember v' name) R :=
  rel_mismatch (by rw [h.typeName_eq])

/-! ## Arguments of methods -/

theorem rel_functionArgument (method : String) {vs ws : List Value} (h : S.values w vs ws)
    (i : Nat) : S.Rel w (Engine.functionArgument method vs i) (Engine.functionArgument method ws i)
      fun w => Callable.Alike (S.pairing w) := by
  have hi := getElem?_alike h i
  unfold Engine.functionArgument
  generalize vs[i]? = x at hi ⊢
  generalize ws[i]? = y at hi ⊢
  cases hi with
  | none => exact rel_mismatch rfl
  | some hv =>
    cases hv with
    | function hf => exact S.pure hf
    | _ => exact rel_mismatch rfl

theorem rel_stringArgument (method : String) {vs ws : List Value} (h : S.values w vs ws)
    (i : Nat) : S.Rel w (Engine.stringArgument method vs i) (Engine.stringArgument method ws i)
      S.equal := by
  have hi := getElem?_alike h i
  unfold Engine.stringArgument
  generalize vs[i]? = x at hi ⊢
  generalize ws[i]? = y at hi ⊢
  cases hi with
  | none => exact rel_mismatch rfl
  | some hv =>
    cases hv with
    | string s => exact S.pure rfl
    | _ => exact rel_mismatch rfl

theorem rel_integerArgument (method : String) {vs ws : List Value} (h : S.values w vs ws)
    (i : Nat) : S.Rel w (Engine.integerArgument method vs i) (Engine.integerArgument method ws i)
      S.equal := by
  have hi := getElem?_alike h i
  unfold Engine.integerArgument
  generalize vs[i]? = x at hi ⊢
  generalize ws[i]? = y at hi ⊢
  cases hi with
  | none => exact S.pure rfl
  | some hv =>
    cases hv with
    | null => exact S.pure rfl
    | integer n => exact S.pure rfl
    | float x =>
      simp only
      split
      · exact S.pure rfl
      · exact rel_mismatch rfl
    | _ => exact rel_mismatch rfl

theorem rel_chosen (method : String) {v v' : Value} (h : S.value w v v') :
    S.Rel w (Engine.chosen method v) (Engine.chosen method v') S.equal := by
  cases h with
  | boolean b => exact S.pure rfl
  | null => exact S.pure rfl
  | _ => exact rel_mismatch rfl

theorem strings_alike {p : Pairing} {α : Type} (f : α → String) (as : List α) :
    Forall₂ (Value.Alike p) (as.map fun a => .string (f a)) (as.map fun a => .string (f a)) := by
  induction as with
  | nil => exact .nil
  | cons a _ ih => exact .cons (.string _) ih

theorem rel_callStringMethod (s : String) (m : StringMethod) {vs ws : List Value}
    (h : S.values w vs ws) :
    S.Rel w (Engine.callStringMethod s m vs) (Engine.callStringMethod s m ws) S.value := by
  cases m with
  | upper | lower | trim => exact S.pure (.string _)
  | split =>
    refine (rel_stringArgument "string.split" h 0).bind fun w₁ h₁ t t' ht => ?_
    rw [ht]
    exact S.pure (Value.ofItems_alike (strings_alike _ _))
  | contains =>
    refine (rel_stringArgument "string.contains" h 0).bind fun w₁ h₁ t t' ht => ?_
    rw [ht]
    exact S.pure (.boolean _)

/-- The items that an argument of `concat` adds. -/
theorem concat_alike {p : Pairing} {vs ws : List Value} (h : Forall₂ (Value.Alike p) vs ws) :
    Forall₂ (Value.Alike p)
      (vs.flatMap fun v => match v with
        | .list items _ => items
        | v => [v])
      (ws.flatMap fun v => match v with
        | .list items _ => items
        | v => [v]) := by
  refine List.rel_flatMap h ?_
  intro v v' hv
  cases hv with
  | list items _ => exact items
  | _ => exact .cons (by constructor <;> assumption) .nil

namespace Answers

variable (he : S.Answers e₁ e₂)
include he

/-! ## Members -/

theorem readEntry {es fs : Entries} (h : S.entries w es fs) (key : String) :
    S.Rel w (e₁.readEntry es key) (e₂.readEntry fs key) S.value := by
  refine (he.readKey? h key).bind fun w₁ h₁ v v' hv => ?_
  cases hv with
  | none => exact S.pure .null
  | some hv => exact rel_checkedRead key hv

theorem member {v v' : Value} (h : S.value w v v') (name : String) :
    S.Rel w (e₁.member v name) (e₂.member v' name) S.value := by
  cases h with
  | null => exact S.fail _
  | error kind message _ => exact S.fail _
  | mapping entries _ =>
    unfold Engine.member
    simp only [Entries.has_eq entries name]
    split
    · exact he.readEntry entries name
    · split
      · exact rel_newTyped (.mappingMethod _ entries)
      · exact S.pure .null
  | list items origin =>
    unfold Engine.member
    simp only [items.length_eq]
    split
    · exact S.pure (Value.ofInt_alike _)
    · split
      · exact rel_newTyped (.listMethod _ items)
      · exact rel_noMember (.list items origin) name
  | string s =>
    unfold Engine.member
    simp only
    split
    · exact S.pure (Value.ofInt_alike _)
    · split
      · exact rel_newTyped (.stringMethod s _)
      · exact rel_noMember (.string s) name
  | bytes hb =>
    cases hb with
    | mk data hid =>
      unfold Engine.member
      simp only
      split
      · exact S.pure (Value.ofInt_alike _)
      · exact rel_noMember (.bytes (.mk data hid)) name
  | _ => exact rel_mismatch rfl

/-! ## Items -/

theorem position {v v' : Value} (h : S.value w v v') :
    S.Rel w (e₁.position v) (e₂.position v') S.equal := by
  have hn : S.Rel w
      (do Run.mismatch ("index must be an integer, got " ++ (← e₁.ask (.text v false))) :
        Run (Option Nat))
      (do Run.mismatch ("index must be an integer, got " ++ (← e₂.ask (.text v' false))))
      S.equal :=
    (he.text false h).bind fun _ _ _ _ ht => rel_mismatch (by rw [ht])
  cases h with
  | integer n => exact S.pure rfl
  | float x =>
    unfold Engine.position
    simp only
    split
    · exact S.pure rfl
    · exact hn
  | _ => exact hn

omit he in
theorem itemAt {v v' : Value} (h : S.value w v v') (i : Option Nat) :
    S.Rel w (Engine.itemAt v i) (Engine.itemAt v' i) S.value := by
  cases i with
  | none => exact S.pure .null
  | some i =>
    cases h with
    | list items _ => exact S.pure (optional_getD (getElem?_alike items i) .null)
    | string s => exact S.pure (optional_getD (optional_refl_map _ fun _ => .string _) .null)
    | bytes hb =>
      cases hb with
      | mk data _ =>
        exact S.pure (optional_getD (optional_refl_map _ fun _ => Value.ofInt_alike _) .null)
    | _ => exact rel_mismatch rfl

theorem item {v v' k k' : Value} (hv : S.value w v v') (hk : S.value w k k') :
    S.Rel w (e₁.item v k) (e₂.item v' k') S.value := by
  have ht := he.text false hk
  have hm : S.Rel w (Run.mismatch ("cannot index " ++ v.typeName ++ " with " ++ k.typeName))
      (Run.mismatch ("cannot index " ++ v'.typeName ++ " with " ++ k'.typeName)) S.value :=
    rel_mismatch (by rw [hv.typeName_eq, hk.typeName_eq])
  have hi : S.Rel w (do Engine.itemAt v (← e₁.position k)) (do Engine.itemAt v' (← e₂.position k'))
      S.value :=
    (he.position hk).bind fun w₁ h₁ i i' hi => hi ▸ itemAt (value_mono h₁ hv) i
  cases hv with
  | null => exact ht.bind fun _ _ _ _ ht => ht ▸ S.fail _
  | error kind message _ => exact ht.bind fun _ _ _ _ ht => ht ▸ S.fail _
  | mapping entries _ =>
    cases hk with
    | string key => exact he.readEntry entries key
    | integer n => exact he.readEntry entries _
    | float x => exact hi
    | _ => exact hm
  | _ =>
    cases hk with
    | integer n => exact hi
    | float x => exact hi
    | _ => exact hm

/-! ## Lists -/

theorem mapItems {f g : Callable} {vs ws : List Value} (i : Nat)
    (hf : Callable.Alike (S.pairing w) f g) (hv : S.values w vs ws) :
    S.Rel w (e₁.mapItems f i vs) (e₂.mapItems g i ws) S.values := by
  induction vs generalizing ws i w with
  | nil =>
    cases hv
    exact S.pure .nil
  | cons v vs ih =>
    cases hv with
    | cons hx hxs =>
      refine (he.call hf (.cons hx (.cons (Value.ofInt_alike _) .nil))).bind fun w₁ h₁ r r' hr => ?_
      refine (ih (i + 1) (hf.mono (S.within h₁)) (values_mono h₁ hxs)).bind
        fun w₂ h₂ rs rs' hrs => ?_
      exact S.pure (.cons (value_mono h₂ hr) hrs)

theorem filterItems {f g : Callable} {vs ws : List Value} (i : Nat)
    (hf : Callable.Alike (S.pairing w) f g) (hv : S.values w vs ws) :
    S.Rel w (e₁.filterItems f i vs) (e₂.filterItems g i ws) S.values := by
  induction vs generalizing ws i w with
  | nil =>
    cases hv
    exact S.pure .nil
  | cons v vs ih =>
    cases hv with
    | cons hx hxs =>
      refine (he.call hf (.cons hx (.cons (Value.ofInt_alike _) .nil))).bind fun w₁ h₁ r r' hr => ?_
      refine (rel_chosen "list.filter" hr).bind fun w₂ h₂ keep keep' hkeep => ?_
      have h := S.le_trans h₁ h₂
      refine (ih (i + 1) (hf.mono (S.within h)) (values_mono h hxs)).bind
        fun w₃ h₃ rs rs' hrs => ?_
      rw [hkeep]
      refine S.pure ?_
      split
      · exact .cons (value_mono (S.le_trans h h₃) hx) hrs
      · exact hrs

theorem foldItems {f g : Callable} {acc acc' : Value} {vs ws : List Value}
    (hf : Callable.Alike (S.pairing w) f g) (ha : S.value w acc acc') (hv : S.values w vs ws) :
    S.Rel w (e₁.foldItems f acc vs) (e₂.foldItems g acc' ws) S.value := by
  induction vs generalizing ws acc acc' w with
  | nil =>
    cases hv
    exact S.pure ha
  | cons v vs ih =>
    cases hv with
    | cons hx hxs =>
      refine (he.call hf (.cons ha (.cons hx .nil))).bind fun w₁ h₁ r r' hr => ?_
      exact ih (hf.mono (S.within h₁)) hr (values_mono h₁ hxs)

theorem hasItem {v v' : Value} {vs ws : List Value} (hv : S.value w v v')
    (hvs : S.values w vs ws) : S.Rel w (e₁.hasItem v vs) (e₂.hasItem v' ws) S.equal := by
  induction vs generalizing ws w with
  | nil =>
    cases hvs
    exact S.pure rfl
  | cons x xs ih =>
    cases hvs with
    | cons hx hxs =>
      refine (he.equal hx hv).bind fun w₁ h₁ r r' hr => ?_
      rw [hr]
      split
      · exact S.pure rfl
      · exact ih (value_mono h₁ hv) (values_mono h₁ hxs)

theorem callListMethod (m : ListMethod) {is js vs ws : List Value} (hi : S.values w is js)
    (hv : S.values w vs ws) :
    S.Rel w (e₁.callListMethod is m vs) (e₂.callListMethod js m ws) S.value := by
  cases m with
  | map =>
    refine (rel_functionArgument "list.map" hv 0).bind fun w₁ h₁ f g hf => ?_
    refine (he.mapItems 0 hf (values_mono h₁ hi)).bind fun w₂ h₂ rs rs' hr => ?_
    exact S.pure (Value.ofItems_alike hr)
  | filter =>
    refine (rel_functionArgument "list.filter" hv 0).bind fun w₁ h₁ f g hf => ?_
    refine (he.filterItems 0 hf (values_mono h₁ hi)).bind fun w₂ h₂ rs rs' hr => ?_
    exact S.pure (Value.ofItems_alike hr)
  | reduce =>
    refine (rel_functionArgument "list.reduce" hv 0).bind fun w₁ h₁ f g hf => ?_
    have ha := getElem?_alike hv 1
    have hi := values_mono h₁ hi
    generalize vs[1]? = x at ha ⊢
    generalize ws[1]? = y at ha ⊢
    cases ha with
    | some ha => exact he.foldItems hf (value_mono h₁ ha) hi
    | none =>
      cases hi with
      | nil => exact rel_mismatch rfl
      | cons hx hxs => exact he.foldItems hf hx hxs
  | concat => exact S.pure (Value.ofItems_alike (List.rel_append hi (concat_alike hv)))
  | slice =>
    refine (rel_integerArgument "list.slice" hv 0).bind fun w₁ h₁ a a' ha => ?_
    refine (rel_integerArgument "list.slice" (values_mono h₁ hv) 1).bind fun w₂ h₂ b b' hb => ?_
    rw [ha, hb, hi.length_eq]
    exact S.pure (Value.ofItems_alike (List.forall₂_drop _ (List.forall₂_take _
      (values_mono (S.le_trans h₁ h₂) hi))))
  | join =>
    have hs := rel_stringArgument "list.join" hv 0
    have hjoin {w' : S.World} (h : S.le w w') (t : String) :
        S.Rel w'
          (do
            let texts ← is.mapM fun v => e₁.ask (.text v false)
            return Value.string (t.intercalate texts))
          (do
            let texts ← js.mapM fun v => e₂.ask (.text v false)
            return Value.string (t.intercalate texts)) S.value := by
      refine (he.texts (values_mono h hi) false).bind fun w₂ h₂ ts ts' ht => ?_
      rw [ht]
      exact S.pure (.string _)
    have ha := getElem?_alike hv 0
    unfold Engine.callListMethod
    simp only
    generalize vs[0]? = x at ha ⊢
    generalize ws[0]? = y at ha ⊢
    cases ha with
    | none => exact (S.pure (R := S.equal) rfl).bind fun w₁ h₁ t t' ht => ht ▸ hjoin h₁ t
    | some ha =>
      cases ha with
      | null => exact (S.pure (R := S.equal) rfl).bind fun w₁ h₁ t t' ht => ht ▸ hjoin h₁ t
      | _ => exact hs.bind fun w₁ h₁ t t' ht => ht ▸ hjoin h₁ t
  | contains =>
    refine (he.hasItem (optional_getD (getElem?_alike hv 0) .null) hi).bind fun w₁ h₁ r r' hr => ?_
    rw [hr]
    exact S.pure (.boolean _)

/-! ## Mappings -/

theorem callMappingMethod (m : MappingMethod) {es fs : Entries} {vs ws : List Value}
    (h : S.entries w es fs) (hv : S.values w vs ws) :
    S.Rel w (e₁.callMappingMethod es m vs) (e₂.callMappingMethod fs m ws) S.value := by
  cases m with
  | keys =>
    refine S.pure (Value.ofItems_alike ?_)
    rw [Entries.keys, Entries.keys, Keyed.keys_eq h]
    exact strings_alike id _
  | values =>
    exact (he.readAll h).bind fun _ _ _ _ hl => S.pure (Value.ofItems_alike (Keyed.values_alike hl))
  | has =>
    refine (rel_stringArgument "mapping.has" hv 0).bind fun w₁ h₁ t t' ht => ?_
    rw [ht, Entries.has_eq h]
    exact S.pure (.boolean _)

/-! ## Moving points -/

theorem moveEntries {m m' : Motion} {es fs : Entries} {pt pt' : Option (Value × Value)}
    (hm : Motion.Alike (S.pairing w) m m')
    (hp : Option.Rel (fun a b => S.value w a.1 b.1 ∧ S.value w a.2 b.2) pt pt')
    (h : S.entries w es fs) :
    S.Rel w (e₁.moveEntries m pt es) (e₂.moveEntries m' pt' fs) S.locals := by
  induction es generalizing fs w with
  | nil =>
    cases h
    exact S.pure .nil
  | cons e es ih =>
    cases h with
    | @cons _ _ _ fs hk ht =>
      cases hk with
      | mk k hs =>
        refine (he.read hs).bind fun w₁ h₁ v v' hv => ?_
        have hm₁ := hm.mono (S.within h₁)
        -- The moved value of the entry, and then the entries after it.
        have hrest {x y : Run Value} (hx : S.Rel w₁ x y S.value) :
            S.Rel w₁
              (do
                let moved ← x
                return (k, moved) :: (← e₁.moveEntries m pt es))
              (do
                let moved ← y
                return (k, moved) :: (← e₂.moveEntries m' pt' fs)) S.locals := by
          refine hx.bind fun w₂ h₂ u u' hu => ?_
          have h := S.le_trans h₁ h₂
          refine (ih (hm.mono (S.within h)) (optional_imp (fun _ _ hp =>
            ⟨value_mono h hp.1, value_mono h hp.2⟩) hp) (entries_mono h ht)).bind
            fun w₃ h₃ ls ls' hl => ?_
          exact S.pure (.cons (.mk k (value_mono h₃ hu)) hl)
        cases hp with
        | none => exact hrest (he.move hm₁ hv)
        | some hp =>
          simp only
          split
          · exact hrest (S.pure (value_mono h₁ hp.1))
          · split
            · exact hrest (S.pure (value_mono h₁ hp.2))
            · exact hrest (he.move hm₁ hv)

theorem moveOf {m m' : Motion} {v v' : Value} (hm : Motion.Alike (S.pairing w) m m')
    (h : S.value w v v') : S.Rel w (e₁.move m v) (e₂.move m' v') S.value := by
  cases h with
  | list items _ =>
    refine (rel_mapM (A := S.value) (T := S.value) value_mono value_mono
      (fun _ hw _ _ hv => he.move (hm.mono (S.within hw)) hv) items).bind fun w₁ h₁ rs rs' hr => ?_
    exact S.pure (Value.ofItems_alike hr)
  | mapping entries _ =>
    refine (he.readKey? entries "x").bind fun w₁ h₁ x x' hx => ?_
    refine (he.readKey? (entries_mono h₁ entries) "y").bind fun w₂ h₂ y y' hy => ?_
    replace hx := optional_imp (fun _ _ => value_mono h₂) hx
    have h := S.le_trans h₁ h₂
    have hm' := hm.mono (S.within h)
    refine (he.moveEntries hm' (Motion.point_alike hm' hx hy) (entries_mono h entries)).bind
      fun w₃ h₃ ls ls' hl => ?_
    exact S.pure (Value.ofEntries_alike (Entries.ofList_alike hl))
  | null => exact S.pure .null
  | boolean b => exact S.pure (.boolean b)
  | integer n => exact S.pure (.integer n)
  | float x => exact S.pure (.float x)
  | big n => exact S.pure (.big n)
  | string s => exact S.pure (.string s)
  | date n => exact S.pure (.date n)
  | bytes hb => exact S.pure (.bytes hb)
  | function hf => exact S.pure (.function hf)
  | error kind message hp => exact S.pure (.error kind message hp)
  | signal marker => exact S.pure (.signal marker)

/-! ## The library -/

theorem option {o o' : Option Value} (h : Option.Rel (S.value w) o o') (key : String)
    (standard : Float) :
    S.Rel w (e₁.option o key standard) (e₂.option o' key standard) S.equal := by
  cases h with
  | none => exact S.pure rfl
  | some h =>
    cases h with
    | mapping entries _ =>
      refine (he.readKey? entries key).bind fun w₁ h₁ v v' hv => S.pure ?_
      cases hv with
      | none => rfl
      | some hv => exact congrArg (·.getD standard) hv.float?_eq
    | _ => exact S.pure rfl

/-- What goes on with the text of an argument that may be left out. -/
theorem textArgument {x x' : Option Value} {k l : String → Run Value}
    (hk : ∀ w', S.le w w' → ∀ t, S.Rel w' (k t) (l t) S.value) :
    Option.Rel (S.value w) x x' → S.Rel w
      (match x with
        | none => Pure.pure "" >>= k
        | some .null => Pure.pure "" >>= k
        | some v => e₁.ask (.text v false) >>= k)
      (match x' with
        | none => Pure.pure "" >>= l
        | some .null => Pure.pure "" >>= l
        | some v => e₂.ask (.text v false) >>= l) S.value := by
  intro h
  have hnone := hk w (S.le_refl w) ""
  cases h with
  | none => exact hnone
  | some hv =>
    have ht : S.Rel w (e₁.ask (.text _ false) >>= k) (e₂.ask (.text _ false) >>= l) S.value :=
      (he.text false hv).bind fun w₁ h₁ t t' ht => ht ▸ hk w₁ h₁ t
    cases hv with
    | null => exact hnone
    | _ => exact ht

omit he in
/-- What goes on with the size that an argument gives, which may be left out. -/
theorem sizeArgument {x x' : Option Value} {k l : Float → Run Value}
    (hk : ∀ w', S.le w w' → ∀ n, S.Rel w' (k n) (l n) S.value) :
    Option.Rel (S.value w) x x' → S.Rel w
      (match x with
        | none => Pure.pure 16.0 >>= k
        | some .null => Pure.pure 16.0 >>= k
        | some v => Run.ofFaulty (LibraryFunction.double "fontSize" (some v)) >>= k)
      (match x' with
        | none => Pure.pure 16.0 >>= l
        | some .null => Pure.pure 16.0 >>= l
        | some v => Run.ofFaulty (LibraryFunction.double "fontSize" (some v)) >>= l) S.value := by
  intro h
  have hnone := hk w (S.le_refl w) 16.0
  cases h with
  | none => exact hnone
  | some hv =>
    have hd := double_eq "fontSize" (.some hv)
    have ht := (rel_ofFaulty (S := S) (w := w) (R := S.equal) hd).bind (k := k) (l := l)
      (T := S.value) fun w₁ h₁ n n' hn => hn ▸ hk w₁ h₁ n
    cases hv with
    | null => exact hnone
    | _ => exact ht

theorem textMetrics {vs ws : List Value} (h : S.values w vs ws) :
    S.Rel w (e₁.textMetrics vs) (e₂.textMetrics ws) S.value := by
  have ho {w' : S.World} (hw : S.le w w') (i : Nat) : Option.Rel (S.value w') vs[i]? ws[i]? :=
    getElem?_alike (values_mono hw h) i
  refine he.textArgument (fun w₁ h₁ t => ?_) (ho (S.le_refl w) 0)
  refine sizeArgument (fun w₂ h₂ n => ?_) (ho h₁ 1)
  have h₂ := S.le_trans h₁ h₂
  refine (he.option (ho h₂ 2) "widthFactor" 0.6).bind fun w₃ h₃ a a' ha => ?_
  refine (he.option (ho (S.le_trans h₂ h₃) 2) "lineHeight" 1.2).bind fun w₄ h₄ b b' hb => ?_
  rw [ha, hb]
  exact S.pure (Value.ofEntries_alike (.cons (.mk _ (.ready (.float _)))
    (.cons (.mk _ (.ready (.float _))) (.cons (.mk _ (.ready (.float _)))
      (.cons (.mk _ (.ready (.float _))) (.cons (.mk _ (.ready (Value.ofInt_alike _))) .nil))))))

theorem callLibrary (f : LibraryFunction) {vs ws : List Value} (h : S.values w vs ws) :
    S.Rel w (e₁.callLibrary f vs) (e₂.callLibrary f ws) S.value := by
  have hshape : S.value w (vs[0]?.getD .null) (ws[0]?.getD .null) :=
    optional_getD (getElem?_alike h 0) .null
  cases f with
  | textMetrics => exact he.textMetrics h
  | translate =>
    have hx : S.value w (vs[1]?.getD (.integer 0)) (ws[1]?.getD (.integer 0)) :=
      optional_getD (getElem?_alike h 1) (.integer 0)
    have hy : S.value w (vs[2]?.getD (.integer 0)) (ws[2]?.getD (.integer 0)) :=
      optional_getD (getElem?_alike h 2) (.integer 0)
    refine (rel_ofFaulty (R := S.equal) (double_eq "dx" (.some hx))).bind fun w₁ h₁ _ _ _ => ?_
    refine (rel_ofFaulty (R := S.equal) (double_eq "dy" (.some (value_mono h₁ hy)))).bind
      fun w₂ h₂ _ _ _ => ?_
    have h := S.le_trans h₁ h₂
    exact he.move (.shift (value_mono h hx) (value_mono h hy)) (value_mono h hshape)
  | rotate =>
    refine (rel_ofFaulty (R := S.equal) (double_eq "angle" (getElem?_alike h 1))).bind
      fun w₁ h₁ a a' ha => ?_
    rw [ha]
    exact he.move (.turn _ _) (value_mono h₁ hshape)

end Answers
end Simulation
end Workbook
