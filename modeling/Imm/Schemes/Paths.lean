import Mathlib.Data.List.Induction

/-! Runs of a system under a condition on its steps. A path is a run each of whose events met the
    condition in the state before it; what the start satisfies and every such step keeps holds
    wherever a path leads. -/

namespace Steps

universe u

variable {S : Type u} {E : Type} (step : S → E → Option S) (ok : S → E → Prop)

/-- `Path step ok s t`: enabled events that met `ok` lead from `s` to `t`. -/
inductive Path (s : S) : S → Prop
  | here : Path s s
  | next {t u : S} {e : E} (path : Path s t) (hok : ok t e) (hstep : step t e = some u) : Path s u

variable {step ok} {s t u : S}

/-- What every step keeps holds at the end of a run. -/
theorem run_invariant {P : S → Prop} (hs : P s)
    (hstep : ∀ t e u, P t → step t e = some u → P u) {es : List E} (hrun : es.foldlM step s = some t) :
    P t := by
  induction es generalizing s with
  | nil => cases hrun; exact hs
  | cons e es ih =>
    obtain ⟨s', hs', hrun⟩ := Option.bind_eq_some_iff.1 (show (step s e).bind _ = _ from hrun)
    exact ih (hstep s e s' hs hs') hrun

theorem Path.invariant {P : S → Prop} (h : Path step ok s t) (hs : P s)
    (hstep : ∀ t e u, Path step ok s t → P t → ok t e → step t e = some u → P u) : P t := by
  induction h with
  | here => exact hs
  | next path hok hs' ih => exact hstep _ _ _ path ih hok hs'

theorem Path.trans (h : Path step ok s t) (h' : Path step ok t u) : Path step ok s u := by
  induction h' with
  | here => exact h
  | next path hok hs' ih => exact ih.next hok hs'

theorem Path.mono {ok' : S → E → Prop} (h : Path step ok s t) (hok : ∀ s e, ok s e → ok' s e) :
    Path step ok' s t := by
  induction h with
  | here => exact .here
  | next path ho hs' ih => exact ih.next (hok _ _ ho) hs'

theorem Path.events (h : Path step ok s t) : ∃ es : List E, es.foldlM step s = some t := by
  induction h with
  | here => exact ⟨[], rfl⟩
  | @next t u e path hok hstep ih =>
    obtain ⟨es, hes⟩ := ih
    exact ⟨es ++ [e], by simp [List.foldlM_append, hes, hstep]⟩

/-- A path goes on with events that meet the condition in every state. -/
theorem Path.run (h : Path step ok s t) {es : List E} (hok : ∀ e ∈ es, ∀ s, ok s e)
    (hes : es.foldlM step t = some u) : Path step ok s u := by
  induction es generalizing t with
  | nil => cases hes; exact h
  | cons e es ih =>
    obtain ⟨t', ht', hes⟩ := Option.bind_eq_some_iff.1 (show (step t e).bind _ = _ from hes)
    exact ih (h.next (hok e List.mem_cons_self t) ht') (fun e he => hok e (List.mem_cons_of_mem _ he)) hes

/-- A path goes on with events that pass a check that is sufficient for the condition. -/
theorem Path.checked (h : Path step ok s t) {check : S → E → Bool}
    (hcheck : ∀ s e, check s e = true → ok s e) {es : List E}
    (hes : es.foldlM (fun s e => if check s e then step s e else none) t = some u) : Path step ok s u := by
  refine run_invariant h ?_ hes
  intro t e u hpath hstep
  split at hstep
  · rename_i hc
    exact hpath.next (hcheck t e hc) hstep
  · cases hstep

/-! ### The steps of one run -/

variable (step s) in
/-- The run with these events takes `e` in state `t`. -/
def Occurs (events : List E) (t : S) (e : E) : Prop :=
  ∃ es rest, events = es ++ e :: rest ∧ es.foldlM step s = some t

/-- Every part of a run is a path of its own steps. -/
theorem path_occurs {es rest events : List E} (hevents : events = es ++ rest)
    (hrun : es.foldlM step s = some t) : Path step (Occurs step s events) s t := by
  induction es using List.reverseRecOn generalizing rest t with
  | nil => cases hrun; exact .here
  | append_singleton es e ih =>
    rw [List.foldlM_append] at hrun
    obtain ⟨t', ht', hlast⟩ := Option.bind_eq_some_iff.1 hrun
    have hstep : step t' e = some t := by simpa using hlast
    rw [List.append_assoc] at hevents
    exact (ih hevents ht').next ⟨es, rest, hevents, ht'⟩ hstep

theorem Occurs.path {events : List E} {e : E} (h : Occurs step s events t e) :
    Path step (Occurs step s events) s t := by
  obtain ⟨es, rest, hevents, hrun⟩ := h
  exact path_occurs hevents hrun

end Steps
