/-
What the calls on a mapping have done so far.

While entries are read, nothing is computed that is known, and what has been read is known from then
on (`Account`): a computation that reads its own entry may run a second time before it ends, but
whatever value came first stays.  Entries only change between reads, so that from the accounts there
is a record of all calls (`Record`): where each entry stands, and what reads of it have found.
`acts_as_association_list` says it of mappings that were made empty.
-/
import Mathlib.Data.List.Forall2
import Workbook.Proofs.Mapping.Trace

namespace Workbook

open List (Forall₂)

namespace Mapping

variable {bodies : Work → Program} {entries : Entries} {s s' s'' : Store} {form : String}
  {slot : Slot} {thunk : Nat} {v : Value} {l l' : List Event}

/-! ## What happens while entries are read -/

/-- The form that is asked for. -/
def Event.asked? : Event → Option String
  | finds form | begins form _ => some form
  | _ => none

/-- Nothing that has been computed is computed again. -/
def Once (l : List Event) : Prop :=
  l.Pairwise fun a b => ∀ form thunk, a = .ends thunk → b ≠ .begins form thunk

theorem Once.append (h : Once l) (h' : Once l')
    (hnew : ∀ form thunk, .ends thunk ∈ l → .begins form thunk ∉ l') : Once (l ++ l') := by
  refine List.pairwise_append.2 ⟨h, h', ?_⟩
  rintro a ha b hb form thunk rfl rfl
  exact hnew form thunk ha hb

/-- What has been computed is known. -/
def Ended (l : List Event) (s : Store) : Prop :=
  ∀ thunk, .ends thunk ∈ l → ∃ v, s.Knows (.lazy thunk) v

theorem Ended.append (h : Ended l s) (onward : s.Onward s') (h' : Ended l' s') :
    Ended (l ++ l') s' := by
  intro thunk hl
  rcases List.mem_append.1 hl with hl | hl
  · obtain ⟨v, hv⟩ := h thunk hl
    exact ⟨v, hv.onward onward⟩
  · exact h' thunk hl

/-- What the events between two stores say of these, where entries are only read. -/
structure Account (entries : Entries) (s : Store) (l : List Event) (s' : Store) : Prop where
  onward : s.Onward s'
  begun : ∀ form thunk, .begins form thunk ∈ l →
    entries.Under form (.lazy thunk) ∧ ∀ v, ¬ s.Knows (.lazy thunk) v
  ended : Ended l s'
  read : ∀ form v, .reads form v ∈ l → ∃ slot, entries.Under form slot ∧ s'.Knows slot v
  once : Once l

namespace Account

theorem nil (onward : s.Onward s') : Account entries s [] s' where
  onward := onward
  begun := fun _ _ h => absurd h List.not_mem_nil
  ended := fun _ h => absurd h List.not_mem_nil
  read := fun _ _ h => absurd h List.not_mem_nil
  once := .nil

theorem not_begun (h' : Account entries s l' s') (ended : Ended l s) (form : String) (thunk : Nat)
    (hl : .ends thunk ∈ l) : .begins form thunk ∉ l' := by
  obtain ⟨v, hv⟩ := ended thunk hl
  exact fun hl' => (h'.begun form thunk hl').2 v hv

theorem append (h : Account entries s l s') (h' : Account entries s' l' s'') :
    Account entries s (l ++ l') s'' where
  onward := h.onward.trans h'.onward
  begun := by
    intro form thunk hl
    rcases List.mem_append.1 hl with hl | hl
    · exact h.begun form thunk hl
    · obtain ⟨hunder, hnot⟩ := h'.begun form thunk hl
      exact ⟨hunder, fun v hv => hnot v (hv.onward h.onward)⟩
  ended := h.ended.append h'.onward h'.ended
  read := by
    intro form v hl
    rcases List.mem_append.1 hl with hl | hl
    · obtain ⟨slot, hunder, hv⟩ := h.read form v hl
      exact ⟨slot, hunder, hv.onward h'.onward⟩
    · exact h'.read form v hl
  once := h.once.append h'.once (h'.not_begun h.ended)

/-- A read of what is known. -/
theorem found (under : entries.Under form slot) (knows : s.Knows slot v) :
    Account entries s [.finds form, .reads form v] s where
  onward := .refl s
  begun := by simp
  ended := by simp [Ended]
  read := by
    intro form' v' hl
    obtain ⟨rfl, rfl⟩ : form' = form ∧ v' = v := by simpa using hl
    exact ⟨slot, under, knows⟩
  once := by simp [Once]

/-- A read of what is computed meanwhile. -/
theorem computed (h : Account entries s l s') (under : entries.Under form (.lazy thunk))
    (unknown : ∀ v, ¬ s.Knows (.lazy thunk) v) (onward : s'.Onward s'')
    (knows : s''.Knows (.lazy thunk) v) :
    Account entries s (.begins form thunk :: l ++ [Event.ends thunk, Event.reads form v]) s'' where
  onward := h.onward.trans onward
  begun := by
    intro form' thunk' hl
    obtain ⟨rfl, rfl⟩ | hl : (form' = form ∧ thunk' = thunk) ∨ .begins form' thunk' ∈ l := by
      simpa using hl
    · exact ⟨under, unknown⟩
    · exact h.begun form' thunk' hl
  ended := by
    intro thunk' hl
    obtain hl | rfl : .ends thunk' ∈ l ∨ thunk' = thunk := by simpa using hl
    · obtain ⟨u, hu⟩ := h.ended thunk' hl
      exact ⟨u, hu.onward onward⟩
    · exact ⟨v, knows⟩
  read := by
    intro form' v' hl
    obtain hl | ⟨rfl, rfl⟩ : .reads form' v' ∈ l ∨ (form' = form ∧ v' = v) := by simpa using hl
    · obtain ⟨slot, hunder, hv⟩ := h.read form' v' hl
      exact ⟨slot, hunder, hv.onward onward⟩
    · exact ⟨_, under, knows⟩
  once := by
    have hend : Once [.ends thunk, .reads form v] := by simp [Once]
    refine List.pairwise_cons.2 ⟨by simp, List.pairwise_append.2 ⟨h.once, hend, ?_⟩⟩
    rintro a - b hb form' thunk' - rfl
    simp at hb

end Account

/-- The lazy values of entries are there. -/
def Within (entries : Entries) (s : Store) : Prop :=
  ∀ form thunk, entries.Under form (.lazy thunk) → thunk < s.thunks.size

theorem Within.onward (h : Within entries s) (onward : s.Onward s') : Within entries s' :=
  fun form thunk hunder => Nat.lt_of_lt_of_le (h form thunk hunder) onward.size_le

/-- What an entry has been read to be, and is known to be. -/
structure Found (form : String) (slot : Slot) (v : Value) (l : List Event) (s : Store) : Prop where
  knows : s.Knows slot v
  read : .reads form v ∈ l

/-- What a call that reads answers, of the entries as they stand. -/
def Query.Meets (entries : Entries) (a : Answer) (l : List Event) (s : Store) : Query → Prop
  | get key =>
    (∃ slot v, entries.Under (Text.lower key) slot ∧ a = .value (some v) ∧
      Found (Text.lower key) slot v l s) ∨
    (Text.lower key ∉ entries.forms ∧ a = .value none ∧ l = [])
  | has key => a = .flag (decide (Text.lower key ∈ entries.forms)) ∧ l = []
  | keys => a = .keys (entries.map (·.1)) ∧ l = []
  | iter first count => ∃ es, a = .entries es ∧
    Forall₂ (fun e r => r.1 = e.1 ∧ Found (Text.lower e.1) e.2 r.2 l s)
      ((entries.drop first).take count) es
  | len => a = .count entries.forms.length ∧ l = []

/-- All that reading leads to keeps an account, by induction on the whole of what happens. -/
theorem Answers.account {q : Query} {a : Answer} (h : Answers bodies entries s q a l s')
    (within : Within entries s) : Account entries s l s' ∧ q.Meets entries a l s' := by
  refine h.rec
    (motive_1 := fun s form slot v l s' _ => Within entries s → entries.Under form slot →
      Account entries s l s' ∧ Found form slot v l s')
    (motive_2 := fun s _ _ l s' _ => Within entries s → Account entries s l s')
    (motive_3 := fun s _ _ l s' _ => Within entries s → Account entries s l s')
    (motive_4 := fun s q a l s' _ => Within entries s →
      Account entries s l s' ∧ q.Meets entries a l s')
    (motive_5 := fun s es rs l s' _ => Within entries s → es ⊆ entries →
      Account entries s l s' ∧
        Forall₂ (fun e r => r.1 = e.1 ∧ Found (Text.lower e.1) e.2 r.2 l s') es rs)
    ?ready ?missing ?done ?first ?late ?value ?gone ?run ?finished ?act ?ask ?absent ?get ?has
    ?keys ?iter ?len ?none ?cons within
  case ready =>
    intro s form v _ under
    exact ⟨.found under .ready, .ready, by simp⟩
  case missing =>
    intro s form thunk h within under
    exact absurd (within form thunk under) (Nat.not_lt.2 (Array.getElem?_eq_none_iff.1 h))
  case done =>
    intro s form thunk v h _ under
    exact ⟨.found under (.done h), .done h, by simp⟩
  case first =>
    intro s s' form thunk w v l h _ still ih within under
    have hrun := ih within
    have hlt : thunk < s'.thunks.size := within.onward hrun.onward form thunk under
    have hknows : (s'.settle thunk v).Knows (.lazy thunk) v := Store.knows_settle hlt
    refine ⟨?_, hknows, by simp⟩
    exact hrun.computed under (Store.not_knows_of_pending h) (Store.onward_settle still) hknows
  case late =>
    intro s s' form thunk w u v l h _ already ih within under
    have hrun := ih within
    refine ⟨?_, .done already, by simp⟩
    exact hrun.computed under (Store.not_knows_of_pending h) (.refl s') (.done already)
  case value =>
    intro s v _
    exact .nil (.refl s)
  case gone =>
    intro s w session _ _ _
    exact .nil (.refl s)
  case run =>
    intro s s' w session v l _ _ _ ih
    exact ih
  case finished =>
    intro s v _
    exact .nil (.refl s)
  case act =>
    intro s s' f onward next v l _ ih within
    exact (Account.nil (onward s)).append (ih (within.onward (onward s)))
  case ask =>
    intro s s' s'' q next a v l l' _ _ ih ih' within
    obtain ⟨hanswer, -⟩ := ih within
    exact hanswer.append (ih' (within.onward hanswer.onward))
  case absent =>
    intro s key h _
    exact ⟨.nil (.refl s), .inr ⟨Entries.find?_eq_none_iff.1 h, rfl, rfl⟩⟩
  case get =>
    intro s s' key slot v l h _ ih within
    have hunder := Entries.under_of_find? h
    obtain ⟨hread, hfound⟩ := ih within hunder
    exact ⟨hread, .inl ⟨slot, v, hunder, rfl, hfound⟩⟩
  case has =>
    intro s key _
    refine ⟨.nil (.refl s), congrArg Answer.flag ?_, rfl⟩
    rw [Bool.eq_iff_iff, decide_eq_true_iff]
    exact Entries.has_iff_mem_forms
  case keys =>
    intro s _
    exact ⟨.nil (.refl s), rfl, rfl⟩
  case iter =>
    intro s s' first count es l _ ih within
    obtain ⟨hall, hfound⟩ := ih within fun e he => List.mem_of_mem_drop (List.mem_of_mem_take he)
    exact ⟨hall, es, rfl, hfound⟩
  case len =>
    intro s _
    exact ⟨.nil (.refl s), congrArg Answer.count (List.length_map _).symm, rfl⟩
  case none =>
    intro s _ _
    exact ⟨.nil (.refl s), .nil⟩
  case cons =>
    intro s s' s'' key slot rest v es l l' _ _ ih ih' within sub
    obtain ⟨hread, hfound⟩ := ih within (Entries.under_of_mem (sub List.mem_cons_self))
    obtain ⟨hall, hrest⟩ := ih' (within.onward hread.onward) fun e he =>
      sub (List.mem_cons_of_mem _ he)
    refine ⟨hread.append hall, .cons ⟨rfl, ?_, List.mem_append_left _ hfound.read⟩ ?_⟩
    · exact hfound.knows.onward hall.onward
    · exact hrest.imp fun e r hr => ⟨hr.1, hr.2.knows, List.mem_append_right _ hr.2.read⟩

/-! ## What single calls do -/

/-- What is answered and left where an entry is added. -/
def Adds (key : String) (slot : Slot) (entries : Entries) (a : Answer) (entries' : Entries) :
    Prop :=
  (Text.lower key ∈ entries.forms → a = .flag false ∧ entries' = entries) ∧
  (Text.lower key ∉ entries.forms → a = .flag true ∧ entries' = entries ++ [(key, slot)])

theorem adds_insert (entries : Entries) (key : String) (slot : Slot) :
    Adds key slot entries (.flag !(entries.has key)) (entries.insert key slot) := by
  refine ⟨fun h => ⟨?_, Entries.insert_of_mem h⟩, fun h => ⟨?_, Entries.insert_of_not_mem h⟩⟩
  · rw [Entries.has_iff_mem_forms.2 h]
    rfl
  · rw [Bool.eq_false_iff.2 (mt Entries.has_iff_mem_forms.1 h)]
    rfl

/-- What a call does to the entries, and what it answers. -/
def Call.Meets (entries : Entries) (a : Answer) (l : List Event) (entries' : Entries) (s : Store) :
    Call → Prop
  | insert key v => Adds key (.ready v) entries a entries' ∧ l = []
  | insertLazy key w => ∃ thunk, s.thunks[thunk]? = some (.pending w) ∧
    Adds key (.lazy thunk) entries a entries' ∧ l = []
  | set key v =>
    (Text.lower key ∈ entries.forms → entries' = entries.map fun e =>
      if Text.lower e.1 = Text.lower key then (key, .ready v) else e) ∧
    (Text.lower key ∉ entries.forms → entries' = entries ++ [(key, .ready v)]) ∧
    a = .nothing ∧ l = [.sets (Text.lower key)]
  | ask q => q.Meets entries a l s ∧ entries' = entries

theorem Steps.meets {call : Call} {a : Answer} {entries' : Entries}
    (h : Steps bodies entries s call a l entries' s') (distinct : entries.forms.Nodup)
    (within : Within entries s) : call.Meets entries a l entries' s' := by
  cases h with
  | insert => exact ⟨adds_insert _ _ _, rfl⟩
  | insertLazy => exact ⟨s.thunks.size, Array.getElem?_push_size, adds_insert _ _ _, rfl⟩
  | set => exact ⟨Entries.set_of_mem distinct, Entries.set_of_not_mem, rfl, rfl⟩
  | ask answer => exact ⟨(answer.account within).2, rfl⟩

/-! ## Records of calls -/

/-- The form of the key that a call writes. -/
def Call.form? : Call → Option String
  | insert key _ | insertLazy key _ | set key _ => some (Text.lower key)
  | ask _ => none

/-- Each lazy value belongs to one entry, whether it is still there or has been begun. -/
structure Owned (owner : Nat → String) (entries : Entries) (l : List Event) (s : Store) : Prop where
  under : ∀ form thunk, entries.Under form (.lazy thunk) →
    thunk < s.thunks.size ∧ owner thunk = form
  begun : ∀ form thunk, .begins form thunk ∈ l → thunk < s.thunks.size ∧ owner thunk = form

/-- What is so after calls with these events. -/
structure Record (calls : List Call) (l : List Event) (entries : Entries) (s : Store) : Prop where
  distinct : entries.forms.Nodup
  order : entries.forms = (calls.filterMap Call.form?).eraseDups
  owned : ∃ owner, Owned owner entries l s
  ended : Ended l s
  once : Once l
  known : ∀ l₁ form v l₂, l = l₁ ++ .reads form v :: l₂ → .sets form ∉ l₂ →
    ∃ slot, entries.Under form slot ∧ s.Knows slot v
  agree : ∀ l₁ form u l₂ v l₃, l = l₁ ++ .reads form u :: l₂ ++ .reads form v :: l₃ →
    .sets form ∉ l₂ → u = v

/-- A member of two lists in a row stands in the first or in the second. -/
theorem append_eq_append_cons {α : Type} {as bs cs ds : List α} {x : α}
    (h : as ++ bs = cs ++ x :: ds) :
    (∃ ms, as = cs ++ x :: ms ∧ ds = ms ++ bs) ∨ ∃ ms, cs = as ++ ms ∧ bs = ms ++ x :: ds := by
  obtain ⟨ms, hcs, hbs⟩ | ⟨ms, has, hds⟩ := List.append_eq_append_iff.1 h
  · exact .inr ⟨ms, hcs, hbs⟩
  · cases ms with
    | nil => exact .inr ⟨[], by simpa using has.symm, hds.symm⟩
    | cons m ms =>
      obtain ⟨rfl, rfl⟩ := List.cons.inj hds
      exact .inl ⟨ms, has, rfl⟩

theorem eraseDups_append_singleton (fs : List String) (f : String) :
    (fs ++ [f]).eraseDups = if f ∈ fs then fs.eraseDups else fs.eraseDups ++ [f] := by
  rw [List.eraseDups_append]
  by_cases h : f ∈ fs <;> simp [List.removeAll, h, List.eraseDups_cons]

/-- Events of calls that read nothing. -/
def OnlySets (l : List Event) : Prop :=
  ∀ e ∈ l, ∃ form, e = .sets form

namespace OnlySets

theorem not_begins (h : OnlySets l) (form : String) (thunk : Nat) : .begins form thunk ∉ l := by
  intro hl
  obtain ⟨_, heq⟩ := h _ hl
  cases heq

theorem not_ends (h : OnlySets l) (thunk : Nat) : .ends thunk ∉ l := by
  intro hl
  obtain ⟨_, heq⟩ := h _ hl
  cases heq

theorem not_reads (h : OnlySets l) (form : String) (v : Value) : .reads form v ∉ l := by
  intro hl
  obtain ⟨_, heq⟩ := h _ hl
  cases heq

theorem once (h : OnlySets l) : Once l := by
  refine List.pairwise_of_forall_mem_list ?_
  rintro a ha b hb form thunk rfl rfl
  exact h.not_ends thunk ha

end OnlySets

/-- A slot that holds its value holds no lazy one. -/
theorem fresh_ready (v : Value) (n m thunk : Nat) (h : Slot.ready v = .lazy thunk) :
    n ≤ thunk ∧ thunk < m := by
  cases h

namespace Record

variable {calls : List Call} {call : Call} {entries' : Entries}

theorem within (h : Record calls l entries s) : Within entries s := by
  obtain ⟨owner, howned⟩ := h.owned
  exact fun form thunk hunder => (howned.under form thunk hunder).1

theorem nil (s : Store) : Record [] [] [] s where
  distinct := .nil
  order := rfl
  owned := by
    refine ⟨fun _ => "", fun form thunk h => ?_, fun form thunk h => ?_⟩
    · obtain ⟨key, hmem, -⟩ := h
      cases hmem
    · cases h
  ended := fun _ h => absurd h List.not_mem_nil
  once := .nil
  known := by
    intro l₁ form v l₂ hl
    simp at hl
  agree := by
    intro l₁ form u l₂ v l₃ hl
    simp at hl

/-- A call that writes an entry, without reading any. -/
theorem write (h : Record calls l entries s) (onward : s.Onward s') (hcall : call.form? = some form)
    (fresh : ∀ thunk, slot = .lazy thunk → s.thunks.size ≤ thunk ∧ thunk < s'.thunks.size)
    (forms : entries'.forms =
      if form ∈ entries.forms then entries.forms else entries.forms ++ [form])
    (keeps : ∀ form slot, .sets form ∉ l' → entries.Under form slot → entries'.Under form slot)
    (adds : ∀ form' slot', entries'.Under form' slot' →
      entries.Under form' slot' ∨ form' = form ∧ slot' = slot)
    (sets : OnlySets l') :
    Record (calls ++ [call]) (l ++ l') entries' s' where
  distinct := by
    rw [forms]
    split
    · exact h.distinct
    · rw [← List.concat_eq_append]
      exact h.distinct.concat ‹_›
  order := by
    rw [forms, List.filterMap_append, List.filterMap_cons, hcall]
    show _ = (_ ++ [form]).eraseDups
    rw [eraseDups_append_singleton, ← h.order]
    exact if_congr (by rw [h.order, List.mem_eraseDups]) rfl rfl
  owned := by
    obtain ⟨owner, howned⟩ := h.owned
    -- the thunks that are new belong to the entry that is written
    refine ⟨fun thunk => if thunk < s.thunks.size then owner thunk else form, ?_, ?_⟩
    · intro form' thunk hunder
      rcases adds form' _ hunder with hunder | ⟨rfl, hslot⟩
      · obtain ⟨hlt, howner⟩ := howned.under form' thunk hunder
        exact ⟨Nat.lt_of_lt_of_le hlt onward.size_le, by rw [if_pos hlt, howner]⟩
      · obtain ⟨hle, hlt⟩ := fresh thunk hslot.symm
        exact ⟨hlt, if_neg (Nat.not_lt.2 hle)⟩
    · intro form' thunk hl
      rcases List.mem_append.1 hl with hl | hl
      · obtain ⟨hlt, howner⟩ := howned.begun form' thunk hl
        exact ⟨Nat.lt_of_lt_of_le hlt onward.size_le, by rw [if_pos hlt, howner]⟩
      · exact absurd hl (sets.not_begins form' thunk)
  ended := h.ended.append onward fun thunk hl => absurd hl (sets.not_ends thunk)
  once := h.once.append sets.once fun form thunk _ => sets.not_begins form thunk
  known := by
    intro l₁ form' v l₂ hl hset
    obtain ⟨ms, heq, rfl⟩ | ⟨ms, -, hl⟩ := append_eq_append_cons hl
    · obtain ⟨hms, hl'⟩ := not_or.1 (mt List.mem_append.2 hset)
      obtain ⟨slot', hunder, hv⟩ := h.known l₁ form' v ms heq hms
      exact ⟨slot', keeps form' slot' hl' hunder, hv.onward onward⟩
    · exact absurd (by simp [hl]) (sets.not_reads form' v)
  agree := by
    intro l₁ form' u l₂ v l₃ hl hset
    obtain ⟨ms, hl, -⟩ | ⟨ms, -, hl⟩ := append_eq_append_cons hl
    · exact h.agree l₁ form' u l₂ v ms hl hset
    · exact absurd (by simp [hl]) (sets.not_reads form' v)

/-- A call that reads. -/
theorem read (h : Record calls l entries s) (account : Account entries s l' s')
    (hcall : call.form? = none) : Record (calls ++ [call]) (l ++ l') entries s' where
  distinct := h.distinct
  order := by
    rw [List.filterMap_append, List.filterMap_cons, hcall]
    show _ = (_ ++ []).eraseDups
    rw [List.append_nil, h.order]
  owned := by
    obtain ⟨owner, howned⟩ := h.owned
    have hle := account.onward.size_le
    refine ⟨owner, fun form thunk hunder => ?_, fun form thunk hl => ?_⟩
    · obtain ⟨hlt, howner⟩ := howned.under form thunk hunder
      exact ⟨Nat.lt_of_lt_of_le hlt hle, howner⟩
    · obtain ⟨hlt, howner⟩ : thunk < s.thunks.size ∧ owner thunk = form := by
        rcases List.mem_append.1 hl with hl | hl
        · exact howned.begun form thunk hl
        · exact howned.under form thunk (account.begun form thunk hl).1
      exact ⟨Nat.lt_of_lt_of_le hlt hle, howner⟩
  ended := h.ended.append account.onward account.ended
  once := h.once.append account.once (account.not_begun h.ended)
  known := by
    intro l₁ form v l₂ hl hset
    obtain ⟨ms, heq, rfl⟩ | ⟨ms, -, hl⟩ := append_eq_append_cons hl
    · obtain ⟨hms, -⟩ := not_or.1 (mt List.mem_append.2 hset)
      obtain ⟨slot, hunder, hv⟩ := h.known l₁ form v ms heq hms
      exact ⟨slot, hunder, hv.onward account.onward⟩
    · exact account.read form v (by simp [hl])
  agree := by
    intro l₁ form u l₂ v l₃ hl hset
    obtain ⟨ms, hl, -⟩ | ⟨ms, hms, hl⟩ := append_eq_append_cons hl
    · exact h.agree l₁ form u l₂ v ms hl hset
    · obtain ⟨slot, hunder, hv⟩ := account.read form v (by simp [hl])
      -- what was read first is known in the end, whether this call read it or an earlier one
      obtain ⟨slot', hunder', hu⟩ : ∃ slot, entries.Under form slot ∧ s'.Knows slot u := by
        obtain ⟨ns, hns, rfl⟩ | ⟨ns, -, rfl⟩ := append_eq_append_cons hms.symm
        · obtain ⟨slot', hunder', hu⟩ := h.known l₁ form u ns hns fun hmem =>
            hset (List.mem_append_left _ hmem)
          exact ⟨slot', hunder', hu.onward account.onward⟩
        · exact account.read form u (by simp [hl])
      obtain rfl := hunder.unique h.distinct hunder'
      exact hu.unique hv

theorem step {a : Answer} (h : Record calls l entries s)
    (step : Steps bodies entries s call a l' entries' s') :
    Record (calls ++ [call]) (l ++ l') entries' s' := by
  cases step with
  | @insert key v =>
    exact h.write (.refl s) rfl (fresh_ready v _ _) Entries.forms_insert
      (fun _ _ _ hunder => hunder.insert) (fun _ _ hunder => Entries.under_of_under_insert hunder)
      (by simp [OnlySets])
  | @insertLazy key w =>
    have hfresh : ∀ thunk, Slot.lazy s.thunks.size = .lazy thunk →
        s.thunks.size ≤ thunk ∧ thunk < (s.thunks.push (.pending w)).size := by
      intro thunk heq
      obtain rfl := Slot.lazy.inj heq
      exact ⟨Nat.le_refl _, by simp⟩
    exact h.write (Store.onward_addThunk s w) rfl hfresh Entries.forms_insert
      (fun _ _ _ hunder => hunder.insert) (fun _ _ hunder => Entries.under_of_under_insert hunder)
      (by simp [OnlySets])
  | @set key v =>
    refine h.write (.refl s) rfl (fresh_ready v _ _) (Entries.forms_set h.distinct) ?keeps
      (fun _ _ hunder => Entries.under_of_under_set h.distinct hunder) (by simp [OnlySets])
    case keeps =>
      intro form slot hsets hunder
      exact hunder.set h.distinct fun heq => hsets (by simp [heq])
  | ask answer => exact h.read (answer.account h.within).1 rfl

theorem traces {calls' : List Call} {as : List Answer}
    (h : Traces bodies entries s calls' as l' entries' s') (record : Record calls l entries s) :
    Record (calls ++ calls') (l ++ l') entries' s' := by
  induction h generalizing calls l with
  | nil =>
    rw [List.append_nil, List.append_nil]
    exact record
  | cons step _ ih =>
    have hstep := ih (record.step step)
    rwa [List.append_assoc, List.append_assoc] at hstep

end Record

/-! ## Mappings as association lists -/

/-- The computation of a lazy value asks for its own entry before it has ended. -/
def ReadsItself (l : List Event) (thunk : Nat) : Prop :=
  ∃ l₁ form l₂ e l₃, l = l₁ ++ .begins form thunk :: l₂ ++ e :: l₃ ∧ .ends thunk ∉ l₂ ∧
    e.asked? = some form

theorem Record.begins_once {calls : List Call} (h : Record calls l entries s)
    (hself : ¬ ReadsItself l thunk) {l₁ l₂ : List Event} (hl : l = l₁ ++ .begins form thunk :: l₂)
    (form' : String) : .begins form' thunk ∉ l₂ := by
  intro hagain
  obtain ⟨ms, ns, rfl⟩ := List.append_of_mem hagain
  have hform : form' = form := by
    obtain ⟨owner, howned⟩ := h.owned
    rw [← (howned.begun form thunk (by simp [hl])).2, ← (howned.begun form' thunk (by simp [hl])).2]
  by_cases hend : .ends thunk ∈ ms
  · have honce := h.once
    rw [hl] at honce
    have hms := (List.pairwise_cons.1 (List.pairwise_append.1 honce).2.1).2
    exact (List.pairwise_append.1 hms).2.2 _ hend _ List.mem_cons_self form' thunk rfl rfl
  · refine hself ⟨l₁, form, ms, .begins form' thunk, ns, ?_, hend, congrArg some hform⟩
    rw [hl, List.append_assoc, List.cons_append]

/-- A mapping behaves as an association list under the forms of the keys.  Of calls on one that was
made empty it is known what each does and answers; the entries stand in the order in which their
keys first came, no two under one form; a computation that does not read its own entry begins at
most once; and reads of an entry that is not set meanwhile agree. -/
theorem acts_as_association_list (bodies : Work → Program) (calls : List Call) :
    (∀ fuel entries, look bodies fuel calls entries.table =
      (fun r => (r.1, r.2.table)) <$> run bodies fuel calls entries) ∧
    ∀ s as entries s',
      ((∃ fuel, run bodies fuel calls [] s = .ok (as, entries) s') ↔
        ∃ l, Traces bodies [] s calls as l entries s') ∧
      ∀ l, Traces bodies [] s calls as l entries s' →
        entries.forms.Nodup ∧
        entries.forms = (calls.filterMap Call.form?).eraseDups ∧
        (∀ call a l' entries' s'', Steps bodies entries s' call a l' entries' s'' →
          call.Meets entries a l' entries' s'') ∧
        (∀ thunk, ¬ ReadsItself l thunk → ∀ l₁ form l₂, l = l₁ ++ .begins form thunk :: l₂ →
          ∀ form', .begins form' thunk ∉ l₂) ∧
        ∀ l₁ form u l₂ v l₃, l = l₁ ++ .reads form u :: l₂ ++ .reads form v :: l₃ →
          .sets form ∉ l₂ → u = v := by
  refine ⟨fun fuel entries => run_eq_look bodies fuel calls entries, fun s as entries s' =>
    ⟨traces_iff, fun l htraces => ?_⟩⟩
  have hrecord : Record calls l entries s' := Record.traces htraces (.nil s)
  refine ⟨hrecord.distinct, hrecord.order, ?single, ?once, hrecord.agree⟩
  case single =>
    intro call a l' entries' s'' hstep
    exact hstep.meets hrecord.distinct hrecord.within
  case once =>
    intro thunk hself l₁ form l₂ hl
    exact hrecord.begins_once hself hl

theorem onward_fresh (s : Store) : s.Onward { s with fresh := s.fresh + 1 } :=
  ⟨Nat.le_refl _, fun _ _ => id⟩

/-- A computation that reads its own entry when it runs for the first time. -/
def rereading : Program :=
  .act (fun s => { s with fresh := s.fresh + 1 }) onward_fresh fun s =>
    if s.fresh = 1 then .ask (.get "a") fun _ => .done (.integer 1) else .done (.integer 2)

/-- A store with a session over a workbook without items. -/
def blank (thunks : Array Thunk) (fresh : Nat) : Store :=
  { Store.empty with
    sessions := #[Session.start ⟨[("", some [])], [], 1⟩ .standard [] .null .null 0 0]
    thunks := thunks
    fresh := fresh }

/-- One run inside of the other: the value of the inner one is read. -/
theorem reads_rereading :
    Reads (fun _ => rereading) [("A", .lazy 0)] (blank #[.pending (.expression 0 "A")] 0) "a"
      (.lazy 0) (.integer 2)
      [.begins "a" 0, .begins "a" 0, .ends 0, .reads "a" (.integer 2), .ends 0,
        .reads "a" (.integer 2)]
      (blank #[.done (.integer 2)] 2) := by
  have hsecond : Runs (fun _ => rereading) [("A", .lazy 0)]
      (blank #[.pending (.expression 0 "A")] 1) rereading (.integer 2) []
      (blank #[.pending (.expression 0 "A")] 2) :=
    .act .done
  have hstill : ∀ u, (blank #[.pending (.expression 0 "A")] 2).thunks[0]? ≠ some (Thunk.done u) := by
    intro u hu
    cases hu
  have hinner : Reads (fun _ => rereading) [("A", .lazy 0)]
      (blank #[.pending (.expression 0 "A")] 1) "a" (.lazy 0) (.integer 2)
      ([Event.begins "a" 0] ++ [Event.ends 0, Event.reads "a" (.integer 2)])
      (blank #[.done (.integer 2)] 2) :=
    .first rfl (.run rfl rfl hsecond) hstill
  have hfirst : Runs (fun _ => rereading) [("A", .lazy 0)]
      (blank #[.pending (.expression 0 "A")] 0) rereading (.integer 1)
      ([Event.begins "a" 0, Event.ends 0, Event.reads "a" (.integer 2)] ++ [])
      (blank #[.done (.integer 2)] 2) :=
    .act (.ask (.get rfl hinner) .done)
  have hknown : (blank #[.done (.integer 2)] 2).thunks[0]? = some (Thunk.done (.integer 2)) := rfl
  exact Reads.late rfl (.run rfl rfl hfirst) hknown

/-- The value that came first stays, although the entry is computed twice. -/
theorem first_value_stays : ∃ l entries s',
    Traces (fun _ => rereading) [] (blank #[] 0)
      [.insertLazy "A" (.expression 0 "A"), .ask (.get "a"), .ask (.get "A")]
      [.flag true, .value (some (.integer 2)), .value (some (.integer 2))] l entries s' ∧
    ReadsItself l 0 ∧
    (∀ l₁ form u l₂ v l₃, l = l₁ ++ .reads form u :: l₂ ++ .reads form v :: l₃ →
      .sets form ∉ l₂ → u = v) := by
  have hget : Steps (fun _ => rereading) [("A", .lazy 0)]
      (blank #[.pending (.expression 0 "A")] 0) (.ask (.get "a")) (.value (some (.integer 2)))
      _ [("A", .lazy 0)] (blank #[.done (.integer 2)] 2) :=
    .ask (.get rfl reads_rereading)
  have hagain : Steps (fun _ => rereading) [("A", .lazy 0)] (blank #[.done (.integer 2)] 2)
      (.ask (.get "A")) (.value (some (.integer 2))) [.finds "a", .reads "a" (.integer 2)]
      [("A", .lazy 0)] (blank #[.done (.integer 2)] 2) :=
    .ask (.get rfl (.done rfl))
  have hinsert : Steps (fun _ => rereading) [] (blank #[] 0)
      (.insertLazy "A" (.expression 0 "A")) (.flag true) [] [("A", .lazy 0)]
      (blank #[.pending (.expression 0 "A")] 0) :=
    .insertLazy
  have htraces := Traces.cons hinsert (.cons hget (.cons hagain .nil))
  obtain ⟨-, h⟩ := acts_as_association_list (fun _ => rereading)
    [.insertLazy "A" (.expression 0 "A"), .ask (.get "a"), .ask (.get "A")]
  refine ⟨_, _, _, htraces, ⟨[], "a", [], .begins "a" 0, _, rfl, List.not_mem_nil, rfl⟩, ?_⟩
  exact ((h _ _ _ _).2 _ htraces).2.2.2.2

end Mapping
end Workbook
