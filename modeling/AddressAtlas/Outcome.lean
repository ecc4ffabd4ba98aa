import AddressAtlas.Event

/-!
# Outcomes

An operation on a store may stop halfway and keep what it has done so far, and it reports events in
either case. `Outcome` holds all three; `andThen` runs a second operation only after a first one that
did not stop, `fold` takes such steps through a list, and `result` forgets the state of one that stopped.
-/

namespace AddressAtlas

/-- The state an operation leaves, the fault that stopped it, and the events it reported. -/
structure Outcome (σ : Type) (ε : Type) where
  state : σ
  fault : Option ε := none
  events : List Event := []
  deriving Repr

namespace Outcome

variable {σ τ ε δ : Type}

def idle (state : σ) : Outcome σ ε :=
  { state }

/-- Continues with `f` unless a fault has occurred, and keeps the events of both in order. -/
def andThen (o : Outcome σ ε) (f : σ → Outcome σ ε) : Outcome σ ε :=
  match o.fault with
  | some _ => o
  | none =>
    let next := f o.state
    { next with events := o.events ++ next.events }

def map (f : σ → τ) (o : Outcome σ ε) : Outcome τ ε :=
  ⟨f o.state, o.fault, o.events⟩

def mapFault (f : ε → δ) (o : Outcome σ ε) : Outcome σ δ :=
  ⟨o.state, o.fault.map f, o.events⟩

/-- The state, or the fault that makes it useless. -/
def result (o : Outcome σ ε) : Except ε σ :=
  match o.fault with
  | some e => .error e
  | none => .ok o.state

/-- Takes steps through a list behind the events `before`. -/
def foldFrom {α : Type} (step : σ → α → Outcome σ ε) (before : Array Event) (state : σ) :
    List α → Outcome σ ε
  | [] => { state, events := before.toList }
  | a :: rest =>
    let o := step state a
    let events := before ++ o.events
    match o.fault with
    | some e => ⟨o.state, some e, events.toList⟩
    | none => foldFrom step events o.state rest

/-- Takes a step for each element of a list, up to the first fault. -/
def fold {α : Type} (step : σ → α → Outcome σ ε) (state : σ) (l : List α) : Outcome σ ε :=
  foldFrom step #[] state l

@[simp] theorem fault_mapFault (f : ε → δ) (o : Outcome σ ε) : (o.mapFault f).fault = o.fault.map f :=
  rfl

@[simp] theorem state_mapFault (f : ε → δ) (o : Outcome σ ε) : (o.mapFault f).state = o.state :=
  rfl

@[simp] theorem idle_andThen (s : σ) (f : σ → Outcome σ ε) : (idle s).andThen f = f s := by
  simp [idle, andThen]

@[simp] theorem andThen_idle (o : Outcome σ ε) : o.andThen idle = o := by
  rcases o with ⟨s, _ | e, l⟩ <;> simp [idle, andThen]

theorem andThen_of_fault {o : Outcome σ ε} {e : ε} (h : o.fault = some e) (f : σ → Outcome σ ε) :
    o.andThen f = o := by
  unfold andThen
  rw [h]

theorem andThen_of_none {o : Outcome σ ε} (h : o.fault = none) (f : σ → Outcome σ ε) :
    o.andThen f = { f o.state with events := o.events ++ (f o.state).events } := by
  unfold andThen
  rw [h]

/-- Two operations meet no fault if neither of them does. -/
theorem fault_andThen_eq_none_iff {o : Outcome σ ε} {f : σ → Outcome σ ε} :
    (o.andThen f).fault = none ↔ o.fault = none ∧ (f o.state).fault = none := by
  rcases o with ⟨s, _ | e, l⟩ <;> simp [andThen]

theorem state_andThen_of_none {o : Outcome σ ε} (h : o.fault = none) (f : σ → Outcome σ ε) :
    (o.andThen f).state = (f o.state).state := by
  rw [andThen_of_none h]

theorem andThen_assoc (o : Outcome σ ε) (f g : σ → Outcome σ ε) :
    (o.andThen f).andThen g = o.andThen fun s => (f s).andThen g := by
  rcases o with ⟨s, _ | e, l⟩
  · rcases h : f s with ⟨t, _ | d, k⟩ <;> simp [andThen, h]
  · simp [andThen]

theorem state_of_result {o : Outcome σ ε} {s : σ} (h : o.result = .ok s) : o.state = s := by
  rcases o with ⟨s, _ | e, l⟩
  · exact Except.ok.inj h
  · cases h

theorem result_eq_ok_iff {o : Outcome σ ε} {s : σ} : o.result = .ok s ↔ o.fault = none ∧ o.state = s := by
  rcases o with ⟨t, _ | e, l⟩ <;> simp [result]

theorem exists_result_eq_ok_iff {o : Outcome σ ε} : (∃ s, o.result = .ok s) ↔ o.fault = none := by
  simp only [result_eq_ok_iff, exists_and_left, exists_eq', and_true]

theorem result_eq_error_iff {o : Outcome σ ε} {e : ε} : o.result = .error e ↔ o.fault = some e := by
  rcases o with ⟨t, _ | d, l⟩ <;> simp [result]

theorem result_andThen (o : Outcome σ ε) (f : σ → Outcome σ ε) :
    (o.andThen f).result = o.result.bind fun s => (f s).result := by
  rcases o with ⟨s, _ | e, l⟩ <;> rfl

theorem result_map (f : σ → τ) (o : Outcome σ ε) : (o.map f).result = o.result.map f := by
  rcases o with ⟨s, _ | e, l⟩ <;> rfl

theorem mapFault_andThen (o : Outcome σ ε) (f : σ → Outcome σ ε) (g : ε → δ) :
    (o.andThen f).mapFault g = (o.mapFault g).andThen fun s => (f s).mapFault g := by
  rcases o with ⟨s, _ | e, l⟩ <;> rfl

theorem foldFrom_eq {α : Type} (step : σ → α → Outcome σ ε) (before : Array Event) (s : σ) (l : List α) :
    foldFrom step before s l =
      { fold step s l with events := before.toList ++ (fold step s l).events } := by
  unfold fold
  induction l generalizing before s with
  | nil => simp [foldFrom]
  | cons a rest ih =>
    simp only [foldFrom]
    rcases step s a with ⟨t, _ | e, k⟩
    · simp only
      rw [ih (before ++ k), ih (#[] ++ k)]
      simp
    · simp

@[simp] theorem fold_nil {α : Type} (step : σ → α → Outcome σ ε) (s : σ) : fold step s [] = idle s := by
  simp [fold, foldFrom, idle]

/-- The steps behind the first one are taken unless that has met a fault. -/
@[simp] theorem fold_cons {α : Type} (step : σ → α → Outcome σ ε) (s : σ) (a : α) (rest : List α) :
    fold step s (a :: rest) = (step s a).andThen (fold step · rest) := by
  rw [fold, foldFrom]
  rcases h : step s a with ⟨t, _ | e, k⟩
  · simp [andThen, foldFrom_eq step k.toArray]
  · simp [andThen]

theorem mapFault_fold {α : Type} (step : σ → α → Outcome σ ε) (g : ε → δ) (s : σ) (l : List α) :
    (fold step s l).mapFault g = fold (fun s a => (step s a).mapFault g) s l := by
  induction l generalizing s with
  | nil => rfl
  | cons a rest ih => simp only [fold_cons, mapFault_andThen, ih]

theorem fold_map {α β : Type} (step : σ → β → Outcome σ ε) (f : α → β) (s : σ) (l : List α) :
    fold step s (l.map f) = fold (fun s a => step s (f a)) s l := by
  induction l generalizing s with
  | nil => rfl
  | cons a rest ih => simp only [List.map_cons, fold_cons, ih]

theorem fold_append {α : Type} (step : σ → α → Outcome σ ε) (s : σ) (l more : List α) :
    fold step s (l ++ more) = (fold step s l).andThen (fold step · more) := by
  induction l generalizing s with
  | nil => rw [List.nil_append, fold_nil, idle_andThen]
  | cons a rest ih => simp only [List.cons_append, fold_cons, andThen_assoc, ih]

/-- A fault is that of one step, before which there is none and behind which no step is taken. -/
theorem exists_fold_eq_of_fault {α : Type} {step : σ → α → Outcome σ ε} {s : σ} {l : List α} {e : ε}
    (h : (fold step s l).fault = some e) : ∃ k a, l[k]? = some a ∧ (fold step s (l.take k)).fault = none ∧
      (step (fold step s (l.take k)).state a).fault = some e ∧
      fold step s l = (fold step s (l.take k)).andThen (step · a) := by
  induction l generalizing s with
  | nil => cases h
  | cons a rest ih =>
    rw [fold_cons] at h ⊢
    cases hfirst : (step s a).fault with
    | some d =>
      rw [andThen_of_fault hfirst] at h ⊢
      exact ⟨0, a, rfl, rfl, h, (idle_andThen s (step · a)).symm⟩
    | none =>
      rw [andThen_of_none hfirst] at h
      obtain ⟨k, b, hb, hbefore, hfault, heq⟩ := ih h
      refine ⟨k + 1, b, hb, ?_, ?_, ?_⟩
      · rw [List.take_succ_cons, fold_cons, fault_andThen_eq_none_iff]
        exact ⟨hfirst, hbefore⟩
      · rw [List.take_succ_cons, fold_cons, state_andThen_of_none hfirst]
        exact hfault
      · rw [List.take_succ_cons, fold_cons, andThen_assoc, andThen_of_none hfirst, andThen_of_none hfirst, heq]

/-- Without a fault no step has one. -/
theorem fault_step_eq_none {α : Type} {step : σ → α → Outcome σ ε} {s : σ} {l : List α} {k : Nat} {a : α}
    (h : (fold step s l).fault = none) (ha : l[k]? = some a) : (fold step s (l.take k)).fault = none ∧
      (step (fold step s (l.take k)).state a).fault = none := by
  obtain ⟨hk, rfl⟩ := List.getElem?_eq_some_iff.mp ha
  have hsplit : l = l.take k ++ l[k] :: l.drop (k + 1) := by
    rw [← List.drop_eq_getElem_cons hk, List.take_append_drop]
  rw [hsplit, fold_append, fault_andThen_eq_none_iff, fold_cons, fault_andThen_eq_none_iff] at h
  exact ⟨h.1, h.2.1⟩

end Outcome

end AddressAtlas
