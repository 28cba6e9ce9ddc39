/-
Alike values are read, called and converted alike.

Reading entries, calling functions of either language, and the forms that a value has as
text, as JSON and as a native value: all of these ask the engine for lazy entries and
for the parts of a value, so they correspond wherever the engines do.
-/
import Workbook.Proofs.Simulation

open List (Forall₂)

namespace Workbook
namespace Simulation

variable {S : Simulation} {e₁ e₂ : Engine} {w : S.World}

namespace Answers

variable (he : S.Answers e₁ e₂)
include he

/-! ## Entries -/

theorem read {s t : Slot} (h : Slot.Alike (S.pairing w) s t) :
    S.Rel w (e₁.read s) (e₂.read t) S.value := by
  cases h with
  | ready hv => exact S.pure hv
  | lazy ht => exact he.force ht

theorem readKey? {es fs : Entries} (h : S.entries w es fs) (key : String) :
    S.Rel w (e₁.readKey? es key) (e₂.readKey? fs key) (S.optional S.value) := by
  have hk := Entries.find?_alike h key
  unfold Engine.readKey?
  generalize Entries.find? es key = x at hk ⊢
  generalize Entries.find? fs key = y at hk ⊢
  cases hk with
  | none => exact S.pure .none
  | some hs => exact (he.read hs).map fun _ _ _ _ hv => .some hv

theorem readAll {es fs : Entries} (h : S.entries w es fs) :
    S.Rel w (e₁.readAll es) (e₂.readAll fs) S.locals := by
  induction es generalizing fs w with
  | nil =>
    cases h
    exact S.pure .nil
  | cons e es ih =>
    cases h with
    | cons hk ht =>
      cases hk with
      | mk k hs =>
        refine (he.read hs).bind fun w₁ h₁ v v' hv => ?_
        refine (ih (entries_mono h₁ ht)).bind fun w₂ h₂ ls ls' hl => ?_
        exact S.pure (.cons (.mk k (value_mono h₂ hv)) hl)

/-! ## Calls -/

theorem toNatives {vs ws : List Value} (h : S.values w vs ws) :
    S.Rel w (vs.mapM fun v => e₁.ask (.native v)) (ws.mapM fun v => e₂.ask (.native v))
      S.natives :=
  rel_mapM (A := S.value) (T := S.native) value_mono native_mono (fun _ _ _ _ hv => he.native hv) h

omit he in
theorem toValues {vs ws : List Native} (h : S.natives w vs ws) :
    S.Rel w (vs.mapM Run.toValue) (ws.mapM Run.toValue) S.values :=
  rel_mapM (A := S.native) (T := S.value) native_mono value_mono (fun _ _ _ _ hv => rel_toValue hv) h

theorem call {f g : Callable} (hf : Callable.Alike (S.pairing w) f g) {vs ws : List Value}
    (hv : S.values w vs ws) : S.Rel w (e₁.call f vs) (e₂.call g ws) S.value := by
  cases hf with
  | typed hf => exact he.callTyped hf hv
  | native hf =>
    refine (he.toNatives hv).bind fun w₁ h₁ ns ns' hn => ?_
    refine (he.callNative (hf.mono (S.within h₁)) hn).bind fun w₂ h₂ n n' hn => ?_
    exact rel_toValue hn

theorem callBridged {f g : TypedFunction} (hf : TypedFunction.Alike (S.pairing w) f g)
    {vs ws : List Native} (hv : S.natives w vs ws) :
    S.Rel w (e₁.callBridged f vs) (e₂.callBridged g ws) S.native := by
  refine (toValues hv).bind fun w₁ h₁ us us' hu => ?_
  refine (he.callTyped (hf.mono (S.within h₁)) hu).bind fun w₂ h₂ u u' hu => ?_
  exact he.native hu

/-! ## Text and JSON -/

theorem texts {vs ws : List Value} (h : S.values w vs ws) (nested : Bool) :
    S.Rel w (vs.mapM fun v => e₁.ask (.text v nested)) (ws.mapM fun v => e₂.ask (.text v nested))
      S.equal :=
  (rel_mapM (A := S.value) (T := S.equal) value_mono (fun _ _ _ h => h)
    (fun _ _ _ _ hv => he.text nested hv) h).imp fun _ _ _ _ h => by rwa [List.forall₂_eq_eq_eq] at h

theorem entriesText {es fs : Entries} (h : S.entries w es fs) :
    S.Rel w (e₁.entriesText es) (e₂.entriesText fs) S.equal := by
  induction es generalizing fs w with
  | nil =>
    cases h
    exact S.pure rfl
  | cons e es ih =>
    cases h with
    | cons hk ht =>
      cases hk with
      | mk k hs =>
        refine (he.read hs).bind fun w₁ h₁ v v' hv => ?_
        refine (he.text true hv).bind fun w₂ h₂ t t' htext => ?_
        refine (ih (entries_mono (S.le_trans h₁ h₂) ht)).bind fun w₃ h₃ ts ts' hts => ?_
        rw [htext, hts]
        exact S.pure rfl

theorem textOf {v v' : Value} (h : S.value w v v') (nested : Bool) :
    S.Rel w (e₁.text v nested) (e₂.text v' nested) S.equal := by
  cases h with
  | list items _ =>
    refine (he.texts items true).bind fun w₁ h₁ ts ts' ht => ?_
    rw [ht]
    exact S.pure rfl
  | mapping entries _ =>
    refine (he.entriesText entries).bind fun w₁ h₁ ts ts' ht => ?_
    rw [ht]
    exact S.pure rfl
  | bytes hb =>
    cases hb with
    | mk data _ => exact S.pure rfl
  | function hf =>
    unfold Engine.text
    simp only [Callable.name_eq hf]
    exact S.pure rfl
  | _ => exact S.pure rfl

theorem entriesJson {es fs : Entries} (h : S.entries w es fs) :
    S.Rel w (e₁.entriesJson es) (e₂.entriesJson fs) S.equal := by
  induction es generalizing fs w with
  | nil =>
    cases h
    exact S.pure rfl
  | cons e es ih =>
    cases h with
    | cons hk ht =>
      cases hk with
      | mk k hs =>
        refine (he.read hs).bind fun w₁ h₁ v v' hv => ?_
        refine (he.json hv).bind fun w₂ h₂ j j' hj => ?_
        refine (ih (entries_mono (S.le_trans h₁ h₂) ht)).bind fun w₃ h₃ js js' hjs => ?_
        rw [hj, hjs]
        exact S.pure rfl

theorem jsonOf {v v' : Value} (h : S.value w v v') : S.Rel w (e₁.json v) (e₂.json v') S.equal := by
  cases h with
  | list items _ =>
    refine (rel_mapM (A := S.value) (T := S.equal) value_mono (fun _ _ _ h => h)
      (fun _ _ _ _ hv => he.json hv) items).bind fun w₁ h₁ js js' hj => ?_
    rw [List.forall₂_eq_eq_eq] at hj
    rw [hj]
    exact S.pure rfl
  | mapping entries _ =>
    refine (he.entriesJson entries).bind fun w₁ h₁ js js' hj => ?_
    rw [hj]
    exact S.pure rfl
  | bytes hb =>
    cases hb with
    | mk data _ => exact S.pure rfl
  | function hf =>
    unfold Engine.json
    simp only [Callable.name_eq hf]
    exact S.pure rfl
  | error kind message hp =>
    cases hp with
    | none => exact S.pure rfl
    | some hv =>
      refine (he.json hv).bind fun w₁ h₁ j j' hj => ?_
      rw [hj]
      exact S.pure rfl
  | _ => exact S.pure rfl

/-! ## Native values -/

theorem entriesNative {es fs : Entries} (h : S.entries w es fs) :
    S.Rel w (e₁.entriesNative es) (e₂.entriesNative fs) S.fields := by
  induction es generalizing fs w with
  | nil =>
    cases h
    exact S.pure .nil
  | cons e es ih =>
    cases h with
    | cons hk ht =>
      cases hk with
      | mk k hs =>
        refine (he.read hs).bind fun w₁ h₁ v v' hv => ?_
        refine (he.native hv).bind fun w₂ h₂ n n' hn => ?_
        refine (ih (entries_mono (S.le_trans h₁ h₂) ht)).bind fun w₃ h₃ ns ns' hns => ?_
        exact S.pure (.cons (.mk k (native_mono h₃ hn)) hns)

/-- A value keeps its native form; a container that came from one is that one again in
both runs or in neither. -/
theorem nativeOf {v v' : Value} (h : S.value w v v') :
    S.Rel w (e₁.native v) (e₂.native v') S.native := by
  cases h with
  | null => exact S.pure .null
  | boolean b => exact S.pure (.boolean b)
  | integer n =>
    refine S.pure ?_
    split
    · exact .number _
    · exact .big _
  | float x => exact S.pure (.number x)
  | big n => exact S.pure (.big n)
  | string s => exact S.pure (.string s)
  | date n => exact S.pure (.date n)
  | bytes hb => exact S.pure (.bytes hb)
  | list items origin =>
    refine S.get fun s t hs => ?_
    have ho := hs.currentArray origin
    generalize Engine.currentArray s _ = x at ho ⊢
    generalize Engine.currentArray t _ = y at ho ⊢
    cases ho with
    | some ha => exact S.pure ha
    | none => exact (he.toNatives items).bind fun _ _ _ _ hn => S.newArray (by simpa using hn)
  | mapping entries origin =>
    refine S.get fun s t hs => ?_
    have ho := hs.currentObject origin
    generalize Engine.currentObject s _ = x at ho ⊢
    generalize Engine.currentObject t _ = y at ho ⊢
    cases ho with
    | some ha => exact S.pure ha
    | none => exact (he.entriesNative entries).bind fun _ _ _ _ hn => S.newObject hn
  | function hf =>
    cases hf with
    | native hf => exact S.pure (.function hf)
    | typed hf => exact rel_newNative (.bridge hf)
  | error kind message hp =>
    have hobject {w : S.World} {n n' : Native} (hn : S.native w n n') :
        S.fields w [("type", .string kind), ("message", .string message), ("data", n)]
          [("type", .string kind), ("message", .string message), ("data", n')] :=
      .cons (.mk _ (.string _)) (.cons (.mk _ (.string _)) (.cons (.mk _ hn) .nil))
    cases hp with
    | none => exact S.newObject (hobject .null)
    | some hv => exact (he.native hv).bind fun _ _ _ _ hn => S.newObject (hobject hn)
  | signal marker => exact S.pure (.marker marker)

/-! ## Equality -/

theorem equalItems {as as' bs bs' : List Value} (ha : S.values w as as') (hb : S.values w bs bs') :
    S.Rel w (e₁.equalItems as bs) (e₂.equalItems as' bs') S.equal := by
  induction as generalizing as' bs bs' w with
  | nil =>
    cases ha
    cases hb <;> exact S.pure rfl
  | cons a as ih =>
    cases ha with
    | cons hx hxs =>
      cases hb with
      | nil => exact S.pure rfl
      | cons hy hys =>
        refine (he.equal hx hy).bind fun w₁ h₁ r r' hr => ?_
        rw [hr]
        split
        · exact ih (values_mono h₁ hxs) (values_mono h₁ hys)
        · exact S.pure rfl

theorem equalEntries {es es' fs fs' : Entries} (he' : S.entries w es es')
    (hf : S.entries w fs fs') :
    S.Rel w (e₁.equalEntries fs es) (e₂.equalEntries fs' es') S.equal := by
  induction es generalizing es' fs fs' w with
  | nil =>
    cases he'
    exact S.pure rfl
  | cons e es ih =>
    cases he' with
    | cons hk ht =>
      cases hk with
      | mk k hs =>
        refine (he.read hs).bind fun w₁ h₁ v v' hv => ?_
        refine (he.readKey? (entries_mono h₁ hf) k).bind fun w₂ h₂ u u' hu => ?_
        cases hu with
        | none => exact S.pure rfl
        | some hu =>
          refine (he.equal (value_mono h₂ hv) hu).bind fun w₃ h₃ r r' hr => ?_
          rw [hr]
          split
          · have h := S.le_trans h₁ (S.le_trans h₂ h₃)
            exact ih (entries_mono h ht) (entries_mono h hf)
          · exact S.pure rfl

theorem equalOf {a a' b b' : Value} (ha : S.value w a a') (hb : S.value w b b') :
    S.Rel w (e₁.equal a b) (e₂.equal a' b') S.equal := by
  cases ha with
  | bytes h =>
    cases hb with
    | bytes h' =>
      cases h
      cases h'
      exact S.pure rfl
    | _ => exact S.pure rfl
  | list items _ =>
    cases hb with
    | list items' _ =>
      unfold Engine.equal
      simp only [items.length_eq, items'.length_eq]
      split
      · exact he.equalItems items items'
      · exact S.pure rfl
    | _ => exact S.pure rfl
  | mapping entries _ =>
    cases hb with
    | mapping entries' _ =>
      unfold Engine.equal
      simp only [entries.length_eq, entries'.length_eq]
      split
      · exact he.equalEntries entries entries'
      · exact S.pure rfl
    | _ => exact S.pure rfl
  | function hf =>
    cases hb with
    | function hg =>
      refine rel_oneToOne fun hp => ?_
      unfold Engine.equal
      simp only [Callable.same_eq hp hf hg]
      exact S.pure rfl
    | _ => exact S.pure rfl
  | _ => cases hb <;> exact S.pure rfl

end Answers
end Simulation
end Workbook
