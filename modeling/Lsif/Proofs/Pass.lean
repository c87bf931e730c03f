import Lsif.Pass

/-! Passes that only add to the notices before them. What such a pass returns does not hang on these
notices, so its value can be computed without them: `value` turns a pass into a plain `Except`. -/

namespace Lsif.Pass

variable {α β γ : Type}

def resume (log : Array Notice) :
    Array Notice × Except Fault α → EStateM.Result Fault (Array Notice) α
  | (more, .ok a) => .ok a (log ++ more)
  | (more, .error fault) => .error fault (log ++ more)

/-- A pass that only adds notices and reads none. -/
class Appending (p : Pass α) : Prop where
  run_eq : ∀ log, p log = resume log p.outcome

def value (p : Pass α) : Except Fault α := p.outcome.2

theorem outcome_eq (p : Pass α) : p.outcome =
    match p #[] with
    | .ok a log => (log, .ok a)
    | .error fault log => (log, .error fault) := rfl

instance (a : α) : Appending (pure a : Pass α) where
  run_eq log := by
    change EStateM.Result.ok a log = EStateM.Result.ok a (log ++ #[])
    rw [Array.append_empty]

instance (fault : Fault) : Appending (throw fault : Pass α) where
  run_eq log := by
    change EStateM.Result.error fault log = EStateM.Result.error fault (log ++ #[])
    rw [Array.append_empty]

instance (n : Notice) : Appending (note n) where
  run_eq log := by
    change EStateM.Result.ok () (log.push n) = EStateM.Result.ok () (log ++ #[n])
    rw [Array.push_eq_append]

theorem run_bind_ok {p : Pass α} {a : α} {log next : Array Notice} (h : p log = .ok a next)
    (f : α → Pass β) : (p >>= f) log = f a next := by
  change EStateM.bind p f log = f a next
  simp only [EStateM.bind, h]

theorem run_bind_error {p : Pass α} {fault : Fault} {log next : Array Notice}
    (h : p log = .error fault next) (f : α → Pass β) : (p >>= f) log = .error fault next := by
  change EStateM.bind p f log = .error fault next
  simp only [EStateM.bind, h]

theorem outcome_bind (p : Pass α) (f : α → Pass β) [∀ a, Appending (f a)] :
    (p >>= f).outcome =
      match p.outcome with
      | (log, .ok a) => (log ++ (f a).outcome.1, (f a).outcome.2)
      | (log, .error fault) => (log, .error fault) := by
  rw [outcome_eq (p >>= f), outcome_eq p]
  cases h : p #[] with
  | error fault log => rw [run_bind_error h]
  | ok a log =>
    rw [run_bind_ok h, Appending.run_eq (p := f a) log]
    rcases hf : (f a).outcome with ⟨more, fault | b⟩ <;> simp only [resume, hf]

instance (p : Pass α) (f : α → Pass β) [Appending p] [∀ a, Appending (f a)] :
    Appending (p >>= f) where
  run_eq log := by
    have hp := Appending.run_eq (p := p) log
    rw [outcome_bind]
    rcases houtcome : p.outcome with ⟨more, fault | a⟩
    · rw [houtcome] at hp
      rw [run_bind_error hp]
      rfl
    · rw [houtcome] at hp
      rw [run_bind_ok hp, Appending.run_eq (p := f a) (log ++ more)]
      rcases hf : (f a).outcome with ⟨last, fault | b⟩ <;>
        simp only [resume, hf, Array.append_assoc]

instance (found : Option α) (fault : Fault) : Appending (require found fault) := by
  cases found <;> (unfold require; infer_instance)

instance (result : Except Fault α) : Appending (ofExcept result) := by
  cases result <;> (unfold ofExcept; infer_instance)

@[simp] theorem value_pure (a : α) : (pure a : Pass α).value = .ok a := rfl

@[simp] theorem value_require_some (a : α) (fault : Fault) :
    (require (some a) fault).value = .ok a := rfl

@[simp] theorem value_ofExcept (result : Except Fault α) : (ofExcept result).value = result := by
  cases result <;> rfl

theorem value_bind (p : Pass α) (f : α → Pass β) [∀ a, Appending (f a)] :
    (p >>= f).value = p.value >>= fun a => (f a).value := by
  simp only [value, outcome_bind]
  rcases p.outcome with ⟨log, fault | a⟩ <;> rfl

@[simp] theorem ok_bind (a : α) (f : α → Except Fault β) : (Except.ok a >>= f) = f a := rfl

@[simp] theorem error_bind (fault : Fault) (f : α → Except Fault β) :
    (Except.error fault >>= f) = .error fault := rfl

theorem bind_eq_ok_iff {r : Except Fault α} {f : α → Except Fault β} {b : β} :
    (r >>= f) = .ok b ↔ ∃ a, r = .ok a ∧ f a = .ok b := by
  cases r with
  | error fault => simp only [error_bind, reduceCtorEq, false_and, exists_false]
  | ok a => simp only [ok_bind, Except.ok.injEq, exists_eq_left']

theorem map_eq_ok_iff {r : Except Fault α} {f : α → β} {b : β} :
    r.map f = .ok b ↔ ∃ a, r = .ok a ∧ f a = b := by
  cases r with
  | error fault => simp only [Except.map, reduceCtorEq, false_and, exists_false]
  | ok a => simp only [Except.map, Except.ok.injEq, exists_eq_left']

theorem exists_of_map_eq {r r' : Except Fault α} {f : α → β} (h : r.map f = r'.map f) :
    (∃ a a', r = .ok a ∧ r' = .ok a' ∧ f a = f a') ∨
      ∃ fault, r = .error fault ∧ r' = .error fault := by
  cases r with
  | ok a =>
    obtain ⟨a', rfl, hsame⟩ := map_eq_ok_iff.mp h.symm
    exact .inl ⟨a, a', rfl, rfl, hsame.symm⟩
  | error fault =>
    cases r' with
    | ok a' => cases h
    | error fault' =>
      cases h
      exact .inr ⟨fault, rfl, rfl⟩

instance appending_foldlM (f : β → α → Pass β) [∀ b a, Appending (f b a)] (as : List α) (b : β) :
    Appending (as.foldlM f b) := by
  induction as generalizing b with
  | nil =>
    rw [List.foldlM_nil]
    infer_instance
  | cons a as ih =>
    rw [List.foldlM_cons]
    infer_instance

theorem value_foldlM (f : β → α → Pass β) [∀ b a, Appending (f b a)] (as : List α) (b : β) :
    (as.foldlM f b).value = as.foldlM (fun b a => (f b a).value) b := by
  induction as generalizing b with
  | nil => rfl
  | cons a as ih => simp only [List.foldlM_cons, value_bind, ih]

def log (p : Pass α) : Array Notice := p.outcome.1

@[simp] theorem log_pure (a : α) : (pure a : Pass α).log = #[] := rfl

@[simp] theorem log_require (found : Option α) (fault : Fault) : (require found fault).log = #[] := by
  cases found <;> rfl

theorem log_bind (p : Pass α) (f : α → Pass β) [∀ a, Appending (f a)] : (p >>= f).log =
    match p.value with
    | .ok a => p.log ++ (f a).log
    | .error _ => p.log := by
  simp only [log, value, outcome_bind]
  rcases p.outcome with ⟨log, fault | a⟩ <;> rfl

theorem log_foldlM_eq_empty {f : β → α → Pass β} [∀ b a, Appending (f b a)]
    (h : ∀ b a, (f b a).log = #[]) (as : List α) (b : β) : (as.foldlM f b).log = #[] := by
  induction as generalizing b with
  | nil => rfl
  | cons a as ih =>
    rw [List.foldlM_cons, log_bind, h]
    cases (f b a).value with
    | error fault => rfl
    | ok next => simp only [ih, Array.append_empty]

end Lsif.Pass
