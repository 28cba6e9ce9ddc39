/-
What a session is, whatever it is asked.

A session computes and counts, and a collection of modules loads some; all else stays as it
was when they were made.  `Store.Stands` says so of an earlier and a later store.  It includes
that what is in flight or being loaded is the same in both, that a session is let go of only if
it was started in between, and that a cache of compiled scripts holds nothing but what
compiling them comes to.
-/
import Workbook.Proofs.Accord

namespace Workbook

/-! ## Caches of scripts -/

namespace Script

/-- Where a script stands makes no difference to what compiling it comes to. -/
theorem compile_path (path path' text : String) : compile ⟨path, text⟩ = compile ⟨path', text⟩ :=
  rfl

namespace Cache

/-- Each script of a cache is what compiling its text comes to. -/
def Valid (c : Cache) : Prop :=
  ∀ e ∈ c.entries, ∀ path, compile ⟨path, e.1⟩ = .ok e.2

theorem valid_empty (capacity : Nat) : (empty capacity).Valid :=
  fun _ h => absurd h List.not_mem_nil

/-- A script that is found is what compiling comes to. -/
theorem Valid.compile_eq {c : Cache} (h : c.Valid) {source : Source} {p : Program}
    (hp : c.find? source.text = some p) : compile source = .ok p :=
  h _ (Keyed.mem_of_lookup hp) source.name

theorem Valid.insert {c : Cache} (h : c.Valid) {source : Source} {p : Program}
    (hp : compile source = .ok p) : (c.insert source.text p).Valid := by
  unfold Cache.insert
  split
  · exact h
  · intro e he path
    obtain he | he := List.mem_append.1 he
    · exact h e (List.mem_of_mem_drop he) path
    · obtain rfl := List.mem_singleton.1 he
      exact hp

end Cache
end Script

/-! ## Sessions -/

namespace Session

/-- A session without anything that it has computed, counted or compiled. -/
def frame (σ : Session) : Session :=
  { σ.bare with scripts := .empty 0 }

/-- A session that has only computed, counted and compiled. -/
structure Stays (σ σ' : Session) : Prop where
  frame : σ'.frame = σ.frame
  scripts : σ.scripts.Valid → σ'.scripts.Valid

theorem Stays.refl (σ : Session) : σ.Stays σ :=
  ⟨rfl, id⟩

theorem Stays.trans {σ τ υ : Session} (h : σ.Stays τ) (h' : τ.Stays υ) : σ.Stays υ :=
  ⟨h'.frame.trans h.frame, h'.scripts ∘ h.scripts⟩

theorem Grounded.stays {f : Session → Session} (h : Grounded f) (σ : Session) : σ.Stays (f σ) where
  frame := congrArg (fun τ : Session => { τ with scripts := .empty 0 }) (h σ)
  scripts := (show (f σ).bare.scripts = σ.bare.scripts from congrArg _ (h σ)) ▸ id

end Session

/-! ## Modules -/

/-- Modules of which only some whose sessions came later have been loaded. -/
structure Modules.Stays (n : Nat) (m m' : Modules) : Prop where
  alive : m'.alive = m.alive
  registry : m'.registry = m.registry
  loading : m'.loading = m.loading
  loaded : ∀ e ∈ m'.loaded, e ∈ m.loaded ∨ n ≤ e.2

theorem Modules.Stays.refl (n : Nat) (m : Modules) : m.Stays n m :=
  ⟨rfl, rfl, rfl, fun _ => .inl⟩

theorem Modules.Stays.trans {n n' : Nat} {m m' m'' : Modules} (h : m.Stays n m')
    (h' : m'.Stays n' m'') (hn : n ≤ n') : m.Stays n m'' where
  alive := h'.alive.trans h.alive
  registry := h'.registry.trans h.registry
  loading := h'.loading.trans h.loading
  loaded e he := (h'.loaded e he).elim (h.loaded e) fun hle => .inr (Nat.le_trans hn hle)

theorem Keyed.mem_put {α : Type} {key : String} {a : α} {es : List (String × α)} {e : String × α}
    (h : e ∈ put key a es) : e ∈ es ∨ e = (key, a) := by
  induction es with
  | nil => exact .inr (List.mem_singleton.1 h)
  | cons x rest ih =>
    obtain ⟨k, b⟩ := x
    by_cases hk : k = key
    · subst hk
      rw [put, if_pos rfl] at h
      obtain h | h := List.mem_cons.1 h
      · exact .inr h
      · exact .inl (List.mem_cons_of_mem _ h)
    · rw [put, if_neg hk] at h
      obtain h | h := List.mem_cons.1 h
      · exact .inl (h ▸ List.mem_cons_self)
      · exact (ih h).imp_left (List.mem_cons_of_mem _)

/-! ## Stores -/

namespace Store

/-- A store in which the sessions and modules of another one are still what they were. -/
structure Stands (s s' : Store) : Prop where
  size : s.sessions.size ≤ s'.sessions.size
  fresh : s.fresh ≤ s'.fresh
  sessions : ∀ {place : Nat} {σ : Session}, s.sessions[place]? = some σ →
    ∃ σ', s'.sessions[place]? = some σ' ∧ σ.Stays σ'
  modules : ∀ {place : Nat} {m : Modules}, s.modules[place]? = some m →
    ∃ m', s'.modules[place]? = some m' ∧ m.Stays s.sessions.size m'

theorem changeSession_id (s : Store) (place : Nat) : s.changeSession place id = s := by
  unfold changeSession
  congr 1
  apply Array.toList_inj.1
  rw [Array.toList_modify, List.modify_id]

theorem changeModules_id (s : Store) (place : Nat) : s.changeModules place id = s := by
  unfold changeModules
  congr 1
  apply Array.toList_inj.1
  rw [Array.toList_modify, List.modify_id]

namespace Stands

variable {s t u : Store} {place : Nat}

theorem unchanged (hs : t.sessions = s.sessions) (hm : t.modules = s.modules)
    (fresh : s.fresh ≤ t.fresh) : s.Stands t where
  size := Nat.le_of_eq (congrArg Array.size hs.symm)
  fresh := fresh
  sessions h := ⟨_, by rw [hs, h], .refl _⟩
  modules h := ⟨_, by rw [hm, h], .refl _ _⟩

theorem trans (h : s.Stands t) (h' : t.Stands u) : s.Stands u where
  size := Nat.le_trans h.size h'.size
  fresh := Nat.le_trans h.fresh h'.fresh
  sessions hσ := by
    obtain ⟨τ, hτ, hστ⟩ := h.sessions hσ
    obtain ⟨υ, hυ, hτυ⟩ := h'.sessions hτ
    exact ⟨υ, hυ, hστ.trans hτυ⟩
  modules hm := by
    obtain ⟨m', hm', hmm'⟩ := h.modules hm
    obtain ⟨m'', hm'', hmm''⟩ := h'.modules hm'
    exact ⟨m'', hm'', hmm'.trans hmm'' h.size⟩

/-- A session is changed before and after, so that all in all it stays what it was. -/
theorem changeSession {f g : Session → Session} (h : (s.changeSession place f).Stands t)
    (hfg : ∀ σ σ', s.sessions[place]? = some σ → (f σ).Stays σ' → σ.Stays (g σ')) :
    s.Stands (t.changeSession place g) where
  size := by simpa [Store.changeSession] using h.size
  fresh := h.fresh
  sessions {p σ} hσ := by
    have hf : (s.changeSession place f).sessions[p]? = some (if place = p then f σ else σ) := by
      unfold Store.changeSession
      rw [Array.getElem?_modify, hσ]
      split <;> rfl
    obtain ⟨σ', hσ', hstays⟩ := h.sessions hf
    refine ⟨if place = p then g σ' else σ', ?_, ?_⟩
    · unfold Store.changeSession
      rw [Array.getElem?_modify, hσ']
      split <;> rfl
    · by_cases hp : place = p
      · subst hp
        rw [if_pos rfl] at hstays ⊢
        exact hfg σ σ' hσ hstays
      · rwa [if_neg hp] at hstays ⊢
  modules {p m} hm := by
    have hf : (s.changeSession place f).modules[p]? = some m := hm
    obtain ⟨m', hm', hstays⟩ := h.modules hf
    refine ⟨m', hm', ?_⟩
    simpa [Store.changeSession] using hstays

/-- Modules are changed before and after, so that all in all they stay what they were. -/
theorem changeModules {f g : Modules → Modules} (h : (s.changeModules place f).Stands t)
    (hfg : ∀ m m', (f m).Stays s.sessions.size m' → m.Stays s.sessions.size (g m')) :
    s.Stands (t.changeModules place g) where
  size := h.size
  fresh := h.fresh
  sessions := h.sessions
  modules {p m} hm := by
    have hf : (s.changeModules place f).modules[p]? = some (if place = p then f m else m) := by
      unfold Store.changeModules
      rw [Array.getElem?_modify, hm]
      split <;> rfl
    obtain ⟨m', hm', hstays⟩ := h.modules hf
    refine ⟨if place = p then g m' else m', ?_, ?_⟩
    · unfold Store.changeModules
      rw [Array.getElem?_modify, hm']
      split <;> rfl
    · by_cases hp : place = p
      · rw [if_pos hp] at hstays ⊢
        exact hfg m m' hstays
      · rw [if_neg hp] at hstays ⊢
        exact hstays

/-- A session is changed afterwards. -/
theorem andSession (h : s.Stands t) {g : Session → Session}
    (hg : ∀ σ σ', s.sessions[place]? = some σ → σ.Stays σ' → σ.Stays (g σ')) :
    s.Stands (t.changeSession place g) :=
  changeSession (f := id) (by rwa [changeSession_id]) hg

/-- Modules are changed afterwards. -/
theorem andModules (h : s.Stands t) {g : Modules → Modules}
    (hg : ∀ m m' : Modules, m.Stays s.sessions.size m' → m.Stays s.sessions.size (g m')) :
    s.Stands (t.changeModules place g) :=
  changeModules (f := id) (by rwa [changeModules_id]) hg

theorem addSession (s : Store) (σ : Session) : s.Stands (s.addSession σ) where
  size := by simp [Store.addSession]
  fresh := Nat.le_refl _
  sessions hσ := ⟨_, push_getElem? hσ, .refl _⟩
  modules hm := ⟨_, hm, .refl _ _⟩

end Stands

/-- What sessions and modules are lasts. -/
def standing : Lasting where
  Kept := Stands
  refl s := .unchanged rfl rfl (Nat.le_refl _)
  trans := .trans
  size := Stands.size
  unchanged := .unchanged
  changeSession s place f hf :=
    .andSession (.unchanged rfl rfl (Nat.le_refl _)) fun _ σ _ h => h.trans (hf.stays σ)
  insertScript s place source p hp :=
    .andSession (.unchanged rfl rfl (Nat.le_refl _)) fun _ _ _ h => ⟨h.frame, fun hc => (h.scripts hc).insert hp⟩
  addSession s σ _ _ := .addSession s σ
  release h hplace := h.andSession fun _ _ hσ _ =>
    absurd (Array.getElem?_eq_some_iff.1 hσ).1 (Nat.not_lt.2 hplace)
  keepModule specifier h hn := h.andModules fun _ _ hm =>
    { hm with
      loaded := fun e he => by
        obtain he | rfl := Keyed.mem_put he
        · exact hm.loaded e he
        · exact .inr hn }
  executing {s s' place key} r h := h.changeSession fun σ σ' _ hσ => by
    have hframe : { σ'.frame with inFlight := σ'.frame.inFlight.erase key } = σ.frame := by
      rw [hσ.frame]
      show { σ.frame with inFlight := (key :: σ.inFlight).erase key } = σ.frame
      rw [List.erase_cons_head]
      rfl
    exact ⟨hframe, hσ.scripts⟩
  loading {s s' place specifier} h := h.changeModules fun m m' hm =>
    { hm with
      loading := by
        show m'.loading.erase specifier = m.loading
        rw [hm.loading, List.erase_cons_head] }

end Store
end Workbook
