/-
The built-in functions, the outer names of scripts and the methods of strings, numbers, dates and arrays
correspond.

Built-in functions read the store through their arguments, make new containers, and
modify containers that the arguments designate.  A name that a script does not declare
means a global one, made anew, or what its folder binds; the latter is read through the
engine once and then remembered with the execution.

Methods of arrays call functions among their arguments, which may do anything to the
array.  A method that walks over an array has read its items before the first call, so
both runs walk over alike items whatever the calls do.
-/
import Workbook.Proofs.Simulation.Formula

open List (Forall₂)

namespace Workbook
namespace Simulation

open Script

variable {S : Simulation} {e₁ e₂ : Engine} {w : S.World}

/-! ## Built-in functions -/

theorem rel_stringify {v v' : Native} (h : S.native w v v') (indented : Bool) :
    S.Rel w (Run.stringify v indented) (Run.stringify v' indented) S.native := by
  refine S.get fun s t hs => ?_
  rw [hs.json h]
  refine (rel_ofFaulty (R := S.equal) (.refl (fun _ => rfl) _)).bind fun w₁ h₁ j j' hj => ?_
  rw [hj]
  split
  · exact S.pure .undefined
  · exact S.pure (.string _)

theorem rel_parseJson (text : String) :
    S.Rel w (Run.parseJson text) (Run.parseJson text) S.native := by
  unfold Run.parseJson
  split
  · exact rel_nativeOfJson _
  · exact rel_fault _

theorem rel_assignAll {a b : Nat} {vs ws : List Native} (h : (S.pairing w).objects a b)
    (hv : S.natives w vs ws) :
    S.Rel w (Run.assignAll a vs) (Run.assignAll b ws) S.anything := by
  induction vs generalizing ws w with
  | nil =>
    cases hv
    exact S.pure trivial
  | cons v vs ih =>
    cases hv with
    | cons hx hxs =>
      refine S.get fun s t hs => ?_
      refine (S.modifyFields h fun _ _ hf =>
        Keyed.putAll_alike (Native.properties_alike hs hx) hf).bind fun w₁ h₁ _ _ _ => ?_
      exact ih ((S.within h₁).objects h) (natives_mono h₁ hxs)

theorem rel_newPairs {fs gs : Fields} (h : S.fields w fs gs) :
    S.Rel w (Run.newPairs fs) (Run.newPairs gs) S.natives := by
  induction fs generalizing gs w with
  | nil =>
    cases h
    exact S.pure .nil
  | cons f fs ih =>
    cases h with
    | cons hk ht =>
      cases hk with
      | mk k hv =>
        refine (S.newArray (.cons (.string k) (.cons hv .nil))).bind fun w₁ h₁ a a' ha => ?_
        refine (ih (fields_mono h₁ ht)).bind fun w₂ h₂ as as' has => ?_
        exact S.pure (.cons (native_mono h₂ ha) has)

/-- Fields that agree in their values. -/
theorem toArray_alike {p : Pairing} {vs ws : List Native} (h : Forall₂ (Native.Alike p) vs ws) :
    Forall₂ (Native.Alike p) vs.toArray.toList ws.toArray.toList := by
  simpa using h

theorem rel_callBuiltin (b : Builtin) {vs ws : List Native} (h : S.natives w vs ws) :
    S.Rel w (Run.callBuiltin b vs) (Run.callBuiltin b ws) S.native := by
  refine S.get fun s t hs => ?_
  have h0 := argument_alike h 0
  have h1 := argument_alike h 1
  have hp := Native.properties_alike hs h0
  simp only [hs.number h0, hs.text h0, hs.numbers h, hs.texts h, h0.isTruthy_eq,
    hs.number (argument_alike h 2)]
  cases b with
  | number => exact S.pure (.number _)
  | string => exact S.pure (.string _)
  | boolean => exact S.pure (.boolean _)
  | parseInt =>
    have hn := hs.number h1
    generalize argument vs 1 = v at h1 hn ⊢
    generalize argument ws 1 = v' at h1 hn ⊢
    cases h1 with
    | undefined => exact S.pure (.number _)
    | _ =>
      simp only [hn]
      exact S.pure (.number _)
  | parseFloat => exact S.pure (.number _)
  | isNaN | isFinite => exact S.pure (.boolean _)
  | math f => exact S.pure (.number _)
  | stringify => exact rel_stringify h0 _
  | parseJson => exact rel_parseJson _
  | keys =>
    refine S.newArray (toArray_alike ?_)
    have hk := Native.strings_alike (p := S.pairing w)
      (((argument ws 0).properties t).map (·.1))
    rw [List.map_map] at hk
    have hm := congrArg (List.map Native.string) (Keyed.keys_eq hp)
    rw [List.map_map, List.map_map] at hm
    exact hm ▸ hk
  | values | arrayFrom => exact S.newArray (toArray_alike (Keyed.values_alike hp))
  | entries =>
    exact (rel_newPairs hp).bind fun _ _ _ _ ha => S.newArray (toArray_alike ha)
  | assign =>
    generalize argument vs 0 = v at h0 ⊢
    generalize argument ws 0 = v' at h0 ⊢
    cases h0 with
    | object ho =>
      exact (rel_assignAll ho (List.forall₂_drop 1 h)).bind fun w₁ h₁ _ _ _ =>
        S.pure (.object ((S.within h₁).objects ho))
    | _ => exact rel_fault _
  | isArray =>
    generalize argument vs 0 = v at h0 ⊢
    generalize argument ws 0 = v' at h0 ⊢
    cases h0 <;> exact S.pure (.boolean _)
  | fromTimestamp =>
    refine rel_ofFaulty ?_
    unfold momentOfSeconds
    split
    · exact .error _
    · exact .ite (.ok (.date _)) (.error _)
  | console severity =>
    exact (S.log severity _).bind fun _ _ _ _ _ => S.pure .undefined

/-! ## Global names -/

theorem rel_newBuiltins {w : S.World} : ∀ bs : List (String × Builtin),
    S.Rel w (Run.newBuiltins bs) (Run.newBuiltins bs) S.fields
  | [] => S.pure .nil
  | (k, b) :: rest => by
    refine (rel_newNative (.builtin b)).bind fun w₁ h₁ f f' hf => ?_
    refine (rel_newBuiltins rest).bind fun w₂ h₂ fs fs' hfs => ?_
    exact S.pure (.cons (.mk k (native_mono h₂ hf)) hfs)

theorem constants_alike {p : Pairing} (cs : List (String × Float)) :
    Forall₂ (Keyed.Alike (Native.Alike p)) (cs.map fun (k, x) => (k, .number x))
      (cs.map fun (k, x) => (k, .number x)) := by
  induction cs with
  | nil => exact .nil
  | cons c _ ih => exact .cons (.mk c.1 (.number c.2)) ih

theorem rel_newGlobal (g : Global) : S.Rel w (Run.newGlobal g) (Run.newGlobal g) S.native := by
  cases g with
  | number x => exact S.pure (.number x)
  | function b => exact rel_newNative (.builtin b)
  | object constants functions =>
    exact (rel_newBuiltins functions).bind fun _ _ _ _ hf =>
      S.newObject (List.rel_append (constants_alike constants) hf)

/-- Whether a name has a meaning in the surroundings of a script. -/
theorem rel_isBound {s t : Scope Native} (h : Scope.Alike (S.pairing w) (S.native w) s t)
    {fs gs : Fields} (hf : S.fields w fs gs) (name : String) :
    S.Rel w (Run.isBound s fs name) (Run.isBound t gs name) S.equal := by
  unfold Run.isBound
  simp only [optional_isSome (Keyed.lookup_alike hf name)]
  split
  · exact S.pure rfl
  · cases h with
    | fixed hb =>
      simp only [optional_isSome (Keyed.lookup_alike hb name)]
      exact S.pure rfl
    | folder key hs =>
      refine (S.session? hs).bind fun w₁ h₁ x y hxy => ?_
      cases hxy with
      | none => exact S.pure rfl
      | some hss =>
        refine (rel_binding hss ((S.within h₁).sessions hs) key name).bind fun w₂ h₂ x y hxy => ?_
        exact S.pure (optional_isSome hxy)

theorem rel_isDefined {a b c d : Nat} (hr : (S.pairing w).executions a b)
    (hb : (S.pairing w).blocks c d) (name : String) :
    S.Rel w (Run.isDefined a c name) (Run.isDefined b d name) S.equal := by
  refine S.get fun s t hs => ?_
  simp only [optional_isSome (hs.valueOf? hb name)]
  split
  · exact S.pure rfl
  · have he := hs.execution hr
    generalize s.executions[a]? = x at he ⊢
    generalize t.executions[b]? = y at he ⊢
    cases he with
    | none => exact S.pure rfl
    | some he => exact rel_isBound he.scope he.known name

/-- A name that was found is kept. -/
theorem rel_remembered {a b : Nat} (h : (S.pairing w).executions a b) (name : String)
    {x y : Option Native} (hxy : S.optional S.native w x y) :
    S.Rel w (do x.forM (Run.remember a name); return x) (do y.forM (Run.remember b name); return y)
      (S.optional S.native) := by
  cases hxy with
  | none => exact S.pure .none
  | some hv =>
    exact (S.remember name h hv).bind fun _ hw _ _ _ => S.pure (.some (native_mono hw hv))

namespace Answers

variable (he : S.Answers e₁ e₂)
include he

/-! ## Names -/

theorem folderName {a b : Nat} (h : (S.pairing w).sessions a b) (folder name : String) :
    S.Rel w (e₁.folderName a folder name) (e₂.folderName b folder name) (S.optional S.native) := by
  refine Rel.behindCall ?_
  refine (rel_session h).bind fun w₁ h₁ s s' hs => ?_
  have hs₁ := (S.within h₁).sessions h
  refine (rel_binding hs hs₁ folder name).bind fun w₂ h₂ x y hxy => ?_
  cases hxy with
  | none => exact S.pure .none
  | some hb =>
    exact (he.nativeBinding ((S.within h₂).sessions hs₁) name hb).bind fun _ _ _ _ hv =>
      S.pure (.some hv)

theorem supplies : S.Supplies e₁ e₂ where
  toCalls := he.toCalls
  folderName := he.folderName

end Answers

namespace Supplies

variable (he : S.Supplies e₁ e₂)
include he

theorem outerName {a b : Nat} (h : (S.pairing w).executions a b) (name : String) :
    S.Rel w (e₁.outerName a name) (e₂.outerName b name) (S.optional S.native) := by
  refine S.get fun s t hs => ?_
  have hex := hs.execution h
  generalize s.executions[a]? = x at hex ⊢
  generalize t.executions[b]? = y at hex ⊢
  cases hex with
  | none => exact S.pure .none
  | @some e e' hex =>
    obtain ⟨hscope, hknown⟩ := hex
    obtain ⟨scope, known, _, _⟩ := e
    obtain ⟨scope', known', _, _⟩ := e'
    simp only at hscope hknown ⊢
    cases hscope with
    | fixed hb =>
      have hl := Keyed.lookup_alike hb name
      simp only
      generalize List.lookup name _ = x at hl ⊢
      generalize List.lookup name _ = y at hl ⊢
      cases Global.ofName? name with
      | some g => exact (rel_newGlobal g).bind fun _ _ _ _ hv => S.pure (.some hv)
      | none =>
        cases hl with
        | none => exact S.pure .none
        | some hx =>
          cases hx with
          | ok hv => exact S.pure (.some hv)
          | error f => exact rel_fault f
    | folder key hss =>
      have hl := Keyed.lookup_alike hknown name
      simp only
      generalize List.lookup name _ = x at hl ⊢
      generalize List.lookup name _ = y at hl ⊢
      cases hl with
      | some hv => exact S.pure (.some hv)
      | none =>
        simp only
        cases Global.ofName? name with
        | some g =>
          refine ((rel_newGlobal g).map (T := S.optional S.native) fun _ _ _ _ hv =>
            .some hv).bind fun w₁ h₁ x y hxy => ?_
          exact rel_remembered ((S.within h₁).executions h) name hxy
        | none =>
          refine (he.folderName hss key name).bind fun w₁ h₁ x y hxy => ?_
          exact rel_remembered ((S.within h₁).executions h) name hxy

theorem nameInScript {a b c d : Nat} (hr : (S.pairing w).executions a b)
    (hb : (S.pairing w).blocks c d) (name : String) :
    S.Rel w (e₁.nameInScript a c name) (e₂.nameInScript b d name) S.native := by
  refine S.get fun s t hs => ?_
  have hv := hs.valueOf? hb name
  generalize s.valueOf? c name = x at hv ⊢
  generalize t.valueOf? d name = y at hv ⊢
  cases hv with
  | some hv => exact S.pure hv
  | none =>
    refine (he.outerName hr name).bind fun w₁ h₁ x y hxy => ?_
    cases hxy with
    | none => exact S.fail _
    | some hv => exact S.pure hv

end Supplies

/-! ## Methods of strings -/

theorem rel_applyStringMethod (u : String) (m : StringMethod) {vs ws : List Native}
    (h : S.natives w vs ws) :
    S.Rel w (applyStringMethod u m vs) (applyStringMethod u m ws) S.native := by
  refine S.get fun s t hs => ?_
  have h0 := argument_alike h 0
  have h1 := argument_alike h 1
  cases m with
  | toUpperCase | toLowerCase | trim | trimStart | trimEnd | toString => exact S.pure (.string _)
  | split => exact S.newArray (toArray_alike (splitParts_alike hs _ h))
  | slice =>
    simp only [bound_eq hs h0, bound_eq hs h1]
    exact S.pure (.string _)
  | substring =>
    simp only [partBound_eq hs h0, partBound_eq hs h1]
    exact S.pure (.string _)
  | charAt =>
    simp only [hs.number h0]
    split
    · exact S.pure (.string _)
    · exact S.pure (.string _)
  | includes | startsWith | endsWith =>
    simp only [text_eq hs h]
    exact S.pure (.boolean _)
  | indexOf =>
    simp only [text_eq hs h]
    refine S.pure ?_
    split
    · exact .number _
    · exact .number _
  | replace | replaceAll =>
    simp only [text_eq hs h]
    exact S.pure (.string _)
  | repeated =>
    simp only [repeated_eq hs u h]
    exact (rel_ofExcept (R := S.equal) (.refl (fun _ => rfl) _)).bind fun _ _ _ _ ht =>
      S.pure (ht ▸ .string _)
  | padStart | padEnd =>
    simp only [padding_eq hs u h]
    exact (rel_ofExcept (R := S.equal) (.refl (fun _ => rfl) _)).bind fun _ _ _ _ ht =>
      S.pure (ht ▸ .string _)
  | concat =>
    simp only [hs.texts h]
    exact S.pure (.string _)

/-- The answer of a method that has changed an array: its new length. -/
theorem rel_lengthAfter {a b : Nat} {f g : Array Native → Array Native}
    (h : (S.pairing w).arrays a b)
    (hf : ∀ xs ys : Array Native, S.natives w xs.toList ys.toList →
      S.natives w (f xs).toList (g ys).toList) :
    S.Rel w (do Run.modifyItems a f; return .ofNat (← Run.items a).size)
      (do Run.modifyItems b g; return .ofNat (← Run.items b).size) S.native := by
  refine (rel_modifyItems h hf).bind fun w₁ h₁ _ _ _ => ?_
  refine (rel_items ((S.within h₁).arrays h)).bind fun w₂ h₂ xs ys hxy => ?_
  have hl : xs.size = ys.size := hxy.length_eq
  rw [hl]
  exact S.pure (.number _)

namespace Calls

variable (he : S.Calls e₁ e₂)
include he

/-! ## Calls -/

theorem callValue {v v' : Native} (hf : S.native w v v') {vs ws : List Native}
    (hv : S.natives w vs ws) (what : String) :
    S.Rel w (e₁.callValue v vs what) (e₂.callValue v' ws what) S.native := by
  cases hf with
  | function hf =>
    cases hf with
    | mk id hc =>
      cases hc with
      | script f name hr hb => exact he.invoke f name hr hb hv
      | builtin b => exact he.callNative (.mk id (.builtin b)) hv
      | host name reply => exact he.callNative (.mk id (.host name reply)) hv
      | bridge hg => exact he.callNative (.mk id (.bridge hg)) hv
  | _ => exact rel_mismatch rfl

/-! ## Walking over items -/

omit he in
theorem ofNat_alike {p : Pairing} (n : Nat) : Native.Alike p (.ofNat n) (.ofNat n) :=
  .number _

theorem mapped {f f' : Native} (what : String) (i : Nat) {vs ws : List Native}
    (hf : S.native w f f') (hv : S.natives w vs ws) :
    S.Rel w (e₁.mapped f what i vs) (e₂.mapped f' what i ws) S.natives := by
  induction vs generalizing ws i w with
  | nil =>
    cases hv
    exact S.pure .nil
  | cons v vs ih =>
    cases hv with
    | cons hx hxs =>
      refine (he.callValue hf (.cons hx (.cons (ofNat_alike i) .nil)) what).bind
        fun w₁ h₁ r r' hr => ?_
      refine (ih (i + 1) (native_mono h₁ hf) (natives_mono h₁ hxs)).bind fun w₂ h₂ rs rs' hrs => ?_
      exact S.pure (.cons (native_mono h₂ hr) hrs)

theorem forEach {f f' : Native} (i : Nat) {vs ws : List Native}
    (hf : S.native w f f') (hv : S.natives w vs ws) :
    S.Rel w (e₁.forEach f i vs) (e₂.forEach f' i ws) S.anything := by
  induction vs generalizing ws i w with
  | nil =>
    cases hv
    exact S.pure trivial
  | cons v vs ih =>
    cases hv with
    | cons hx hxs =>
      refine (he.callValue hf (.cons hx (.cons (ofNat_alike i) .nil)) _).bind
        fun w₁ h₁ r r' hr => ?_
      exact ih (i + 1) (native_mono h₁ hf) (natives_mono h₁ hxs)

theorem firstWith (wanted : Bool) {f f' : Native} (what : String) (i : Nat) {vs ws : List Native}
    (hf : S.native w f f') (hv : S.natives w vs ws) :
    S.Rel w (e₁.firstWith wanted f what i vs) (e₂.firstWith wanted f' what i ws)
      (S.optional fun w a b => a.1 = b.1 ∧ S.native w a.2 b.2) := by
  induction vs generalizing ws i w with
  | nil =>
    cases hv
    exact S.pure .none
  | cons v vs ih =>
    cases hv with
    | cons hx hxs =>
      refine (he.callValue hf (.cons hx (.cons (ofNat_alike i) .nil)) what).bind
        fun w₁ h₁ r r' hr => ?_
      simp only [hr.isTruthy_eq]
      split
      · exact S.pure (.some ⟨rfl, native_mono h₁ hx⟩)
      · exact ih (i + 1) (native_mono h₁ hf) (natives_mono h₁ hxs)

theorem folded {f f' acc acc' : Native} (i : Nat) {vs ws : List Native}
    (hf : S.native w f f') (ha : S.native w acc acc') (hv : S.natives w vs ws) :
    S.Rel w (e₁.folded f acc i vs) (e₂.folded f' acc' i ws) S.native := by
  induction vs generalizing ws acc acc' i w with
  | nil =>
    cases hv
    exact S.pure ha
  | cons v vs ih =>
    cases hv with
    | cons hx hxs =>
      refine (he.callValue hf (.cons ha (.cons hx (.cons (ofNat_alike i) .nil))) _).bind
        fun w₁ h₁ r r' hr => ?_
      exact ih (i + 1) (native_mono h₁ hf) hr (natives_mono h₁ hxs)

theorem reduced {vs ws is js : List Native} (hv : S.natives w vs ws) (hi : S.natives w is js) :
    S.Rel w (e₁.reduced vs is) (e₂.reduced ws js) S.native := by
  have hf := argument_alike hv 0
  have ha := getElem?_alike hv 1
  unfold Engine.reduced
  simp only
  generalize vs[1]? = x at ha ⊢
  generalize ws[1]? = y at ha ⊢
  cases ha with
  | some ha => exact he.folded 0 hf ha hi
  | none =>
    cases hi with
    | nil => exact rel_mismatch rfl
    | cons hx hxs => exact he.folded 1 hf hx hxs

/-! ## Sorting -/

theorem sortsAfter {c c' a a' b b' : Native} (hc : S.native w c c') (ha : S.native w a a')
    (hb : S.native w b b') :
    S.Rel w (e₁.sortsAfter c a b) (e₂.sortsAfter c' a' b') S.equal := by
  -- Without a comparison the texts decide, and with one the number that it yields.
  have htexts : S.Rel w
      (do return Formula.compareStrings (← Run.textOf a) (← Run.textOf b) == .gt)
      (do return Formula.compareStrings (← Run.textOf a') (← Run.textOf b') == .gt) S.equal := by
    refine (rel_textOf ha).bind fun w₁ h₁ t t' ht => ?_
    refine (rel_textOf (native_mono h₁ hb)).bind fun w₂ h₂ u u' hu => ?_
    rw [ht, hu]
    exact S.pure rfl
  have hcalls : S.Rel w
      (do return 0 < (← Run.numberOf (← e₁.callValue c [a, b] "sort comparator")) : Run Bool)
      (do return 0 < (← Run.numberOf (← e₂.callValue c' [a', b'] "sort comparator"))) S.equal := by
    refine (he.callValue hc (.cons ha (.cons hb .nil)) _).bind fun w₁ h₁ r r' hr => ?_
    refine (rel_numberOf hr).bind fun w₂ h₂ x x' hx => ?_
    rw [hx]
    exact S.pure rfl
  -- Which of the three are undefined is the same on both sides.
  have hua := ha.undefined_iff
  have hub := hb.undefined_iff
  have huc := hc.undefined_iff
  unfold Engine.sortsAfter
  split <;> split <;> first
    | exact S.pure rfl
    | exact htexts
    | exact hcalls
    | simp_all

/-- A value put into a sorted list. -/
theorem placed {c c' v v' : Native} {vs ws : List Native} (hc : S.native w c c')
    (hv : S.native w v v') (hvs : S.natives w vs ws) :
    S.Rel w (e₁.placed c v vs) (e₂.placed c' v' ws) S.natives := by
  induction vs generalizing ws w with
  | nil =>
    cases hvs
    exact S.pure (.cons hv .nil)
  | cons x xs ih =>
    cases hvs with
    | cons hx hxs =>
      refine (he.sortsAfter hc hx hv).bind fun w₁ h₁ r r' hr => ?_
      rw [hr]
      split
      · refine (ih (native_mono h₁ hc) (native_mono h₁ hv) (natives_mono h₁ hxs)).bind
          fun w₂ h₂ rs rs' hrs => ?_
        exact S.pure (.cons (native_mono (S.le_trans h₁ h₂) hx) hrs)
      · exact S.pure (natives_mono h₁ (.cons hv (.cons hx hxs)))

theorem sorted {c c' : Native} {ds ds' vs ws : List Native} (hc : S.native w c c')
    (hd : S.natives w ds ds') (hvs : S.natives w vs ws) :
    S.Rel w (e₁.sorted c ds vs) (e₂.sorted c' ds' ws) S.natives := by
  induction vs generalizing ds ds' ws w with
  | nil =>
    cases hvs
    exact S.pure (List.rel_reverse hd)
  | cons x xs ih =>
    cases hvs with
    | cons hx hxs =>
      refine (he.placed hc hx hd).bind fun w₁ h₁ rs rs' hrs => ?_
      exact ih (native_mono h₁ hc) hrs (natives_mono h₁ hxs)

/-! ## Methods of arrays -/

omit he in
/-- The items whose answers count as true. -/
theorem kept_alike {p : Pairing} {vs ws as bs : List Native} (hv : Forall₂ (Native.Alike p) vs ws)
    (ha : Forall₂ (Native.Alike p) as bs) :
    Forall₂ (Native.Alike p) (((vs.zip as).filter (·.2.isTruthy)).map (·.1))
      (((ws.zip bs).filter (·.2.isTruthy)).map (·.1)) := by
  induction hv generalizing as bs with
  | nil => exact .nil
  | cons hx _ ih =>
    cases ha with
    | nil => exact .nil
    | cons hy hys =>
      rw [List.zip_cons_cons, List.zip_cons_cons, List.filter_cons, List.filter_cons]
      simp only [hy.isTruthy_eq]
      split
      · exact .cons hx (ih hys)
      · exact ih hys

omit he in
theorem findIdx?_eq {p : Pairing} (hp : p.OneToOne) {v v' : Native} (hv : Native.Alike p v v')
    {vs ws : List Native} (h : Forall₂ (Native.Alike p) vs ws) :
    vs.findIdx? (·.strictEquals v) = ws.findIdx? (·.strictEquals v') := by
  induction h with
  | nil => rfl
  | cons hx _ ih =>
    rw [List.findIdx?_cons, List.findIdx?_cons, Native.strictEquals_eq hp hx hv, ih]

omit he in
theorem includes_eq {p : Pairing} (hp : p.OneToOne) {v v' : Native} (hv : Native.Alike p v v')
    {vs ws : List Native} (h : Forall₂ (Native.Alike p) vs ws) :
    (vs.any fun x => x.strictEquals v || (Engine.isNotANumber v && Engine.isNotANumber x)) =
      ws.any fun x => x.strictEquals v' || (Engine.isNotANumber v' && Engine.isNotANumber x) := by
  induction h with
  | nil => rfl
  | cons hx _ ih =>
    rw [List.any_cons, List.any_cons, ih, Native.strictEquals_eq hp hx hv,
      Engine.isNotANumber_eq hv, Engine.isNotANumber_eq hx]

theorem walkArray (m : ArrayMethod) {a b : Nat} (h : (S.pairing w).arrays a b)
    {is js vs ws : List Native} (hi : S.natives w is js) (hv : S.natives w vs ws) :
    S.Rel w (e₁.walkArray a is m vs) (e₂.walkArray b js m ws) S.native := by
  have h0 := argument_alike hv 0
  cases m with
  | map =>
    exact (he.mapped "map callback" 0 h0 hi).bind fun _ _ _ _ hr => S.newArray (toArray_alike hr)
  | filter =>
    exact (he.mapped "filter callback" 0 h0 hi).bind fun w₁ h₁ _ _ hr =>
      S.newArray (toArray_alike (kept_alike (natives_mono h₁ hi) hr))
  | forEach => exact (he.forEach 0 h0 hi).bind fun _ _ _ _ _ => S.pure .undefined
  | find =>
    exact (he.firstWith true "find callback" 0 h0 hi).bind fun _ _ _ _ hr =>
      S.pure (optional_getD (optional_map hr fun _ _ hr => hr.2) .undefined)
  | findIndex =>
    refine (he.firstWith true "find callback" 0 h0 hi).bind fun _ _ _ _ hr => S.pure ?_
    cases hr with
    | none => exact .number _
    | some hr =>
      simp only [Option.map_some, Option.getD_some, hr.1]
      exact .number _
  | some =>
    exact (he.firstWith true "some callback" 0 h0 hi).bind fun _ _ _ _ hr =>
      S.pure (optional_isSome hr ▸ .boolean _)
  | every =>
    refine (he.firstWith false "every callback" 0 h0 hi).bind fun _ _ _ _ hr => S.pure ?_
    cases hr <;> exact .boolean _
  | reduce => exact he.reduced hv hi
  | slice =>
    refine S.get fun s t hs => ?_
    simp only [bound_eq hs h0, bound_eq hs (argument_alike hv 1), hi.length_eq]
    exact S.newArray (toArray_alike (List.forall₂_take _ (List.forall₂_drop _ hi)))
  | concat =>
    exact S.get fun s t hs =>
      S.newArray (toArray_alike (List.rel_append hi (Engine.joinedItems_alike hs hv)))
  | join =>
    refine S.get fun s t hs => S.get fun s' t' hs' => S.pure ?_
    rw [text?_eq hs' hv, Engine.joinedText_eq hs hi]
    exact .string _
  | indexOf =>
    refine rel_oneToOne fun hp => ?_
    unfold Engine.walkArray
    simp only [findIdx?_eq hp h0 hi]
    exact S.pure (optional_getD (optional_refl_map _ fun _ => .number _) (.number _))
  | includes =>
    refine rel_oneToOne fun hp => ?_
    unfold Engine.walkArray
    simp only [includes_eq hp h0 hi]
    exact S.pure (.boolean _)
  | sort =>
    refine (he.sorted h0 .nil hi).bind fun w₁ h₁ rs rs' hr => ?_
    have h₁' := (S.within h₁).arrays h
    exact (rel_modifyItems h₁' fun _ _ _ => toArray_alike hr).bind fun w₂ h₂ _ _ _ =>
      S.pure (.array ((S.within h₂).arrays h₁'))
  | _ => exact S.pure .undefined

theorem callArrayMethod (m : ArrayMethod) {a b : Nat} (h : (S.pairing w).arrays a b)
    {vs ws : List Native} (hv : S.natives w vs ws) :
    S.Rel w (e₁.callArrayMethod a m vs) (e₂.callArrayMethod b m ws) S.native := by
  have hwalk : S.Rel w (do e₁.walkArray a (← Run.items a).toList m vs)
      (do e₂.walkArray b (← Run.items b).toList m ws) S.native :=
    (rel_items h).bind fun w₁ h₁ _ _ hi =>
      he.walkArray m ((S.within h₁).arrays h) hi (natives_mono h₁ hv)
  cases m with
  | push =>
    refine rel_lengthAfter h fun xs ys hxy => ?_
    rw [Array.toList_append, Array.toList_append]
    exact List.rel_append hxy hv
  | unshift =>
    refine rel_lengthAfter h fun xs ys hxy => ?_
    rw [Array.toList_append, Array.toList_append]
    exact List.rel_append hv hxy
  | pop =>
    refine (rel_items h).bind fun w₁ h₁ xs ys hxy => ?_
    refine (rel_modifyItems ((S.within h₁).arrays h) fun xs ys hxy => ?_).bind fun w₂ h₂ _ _ _ => ?_
    · rw [Array.toList_pop, Array.toList_pop, List.dropLast_eq_take, List.dropLast_eq_take,
        hxy.length_eq]
      exact List.forall₂_take _ hxy
    · refine S.pure (optional_getD ?_ .undefined)
      have hl : xs.size = ys.size := hxy.length_eq
      rw [Array.back?_eq_getElem?, Array.back?_eq_getElem?, hl, ← Array.getElem?_toList,
        ← Array.getElem?_toList]
      exact getElem?_alike (natives_mono h₂ hxy) _
  | shift =>
    refine (rel_items h).bind fun w₁ h₁ xs ys hxy => ?_
    refine (rel_modifyItems ((S.within h₁).arrays h) fun xs ys hxy => ?_).bind fun w₂ h₂ _ _ _ => ?_
    · have hd (zs : Array Native) : (zs.drop 1).toList = zs.toList.drop 1 := by
        simp [List.take_of_length_le]
      rw [hd, hd]
      exact List.forall₂_drop 1 hxy
    · refine S.pure (optional_getD ?_ .undefined)
      rw [← Array.getElem?_toList, ← Array.getElem?_toList]
      exact getElem?_alike (natives_mono h₂ hxy) 0
  | reverse =>
    refine (rel_modifyItems h fun xs ys hxy => ?_).bind fun w₁ h₁ _ _ _ =>
      S.pure (.array ((S.within h₁).arrays h))
    rw [Array.toList_reverse, Array.toList_reverse]
    exact List.rel_reverse hxy
  | _ => exact hwalk

/-- Calls the value of a property. -/
theorem callProperty {v v' : Native} (hr : S.native w v v') (name : String) {vs ws : List Native}
    (hv : S.natives w vs ws) : S.Rel w
      (do
        match ← Run.property v name with
        | .function f => e₁.callValue (.function f) vs name
        | _ => Run.mismatch (v.typeOf ++ "." ++ name ++ " is not a function"))
      (do
        match ← Run.property v' name with
        | .function f => e₂.callValue (.function f) ws name
        | _ => Run.mismatch (v'.typeOf ++ "." ++ name ++ " is not a function")) S.native := by
  refine (rel_property hr name).bind fun w₁ h₁ f f' hf => ?_
  cases hf with
  | function hf => exact he.callValue (.function hf) (natives_mono h₁ hv) name
  | _ => exact rel_mismatch (by rw [hr.typeOf_eq])

/-- Calls a method that the receiver's type has, or else the value of the property. -/
theorem callMethod {v v' : Native} (hr : S.native w v v') (name : String) {vs ws : List Native}
    (hv : S.natives w vs ws) :
    S.Rel w (e₁.callMethod v name vs) (e₂.callMethod v' name ws) S.native := by
  have hother := he.callProperty hr name hv
  cases hr with
  | array ha =>
    unfold Engine.callMethod
    simp only
    cases ArrayMethod.ofName? name with
    | none => exact hother
    | some m => exact he.callArrayMethod m ha hv
  | string t =>
    unfold Engine.callMethod
    simp only
    cases StringMethod.ofName? name with
    | none => exact hother
    | some m => exact rel_applyStringMethod t m hv
  | number x =>
    unfold Engine.callMethod
    simp only
    cases NumberMethod.ofName? name with
    | none => exact hother
    | some m => exact S.get fun s t hs => rel_ofExcept (applyNumberMethod_alike hs x m hv)
  | date n =>
    unfold Engine.callMethod
    simp only
    cases DateMethod.ofName? name with
    | none => exact hother
    | some m => exact S.pure (applyDateMethod_alike n m)
  | _ => exact hother

end Calls
end Simulation
end Workbook
