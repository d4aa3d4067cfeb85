import Dialogue.Proofs.Session.Plain

/-!
# The audience

Calls register listeners and remove them. The audience of a run (`Call.audience`) is told from the calls
alone: those who were registered when they were not, and have not been removed since, in the order of
these registrations. The registry is the audience (`Stage.listeners_run`), its keys are distinct, and a
call answers that it changed the registry exactly if it did (`Turn.changes_iff`). Moves leave the
registry alone (`Stage.registry_call`).
-/

namespace Dialogue

/-! ### Who listens -/

namespace Call

/-- Whether a call registers the listener with a key or removes it. -/
def enrols? (key : String) : Call → Option Bool
  | .listen l => if l.key = key then some true else none
  | .unlisten other => if other = key then some false else none
  | _ => none

/-- Whether the last call about a key registers the listener. -/
def enrolled (cs : List Call) (key : String) : Bool :=
  (cs.filterMap (enrols? key)).getLast?.getD false

/-- Whether one of the calls removes the listener with a key. -/
def removed (cs : List Call) (key : String) : Bool := cs.any fun c => c.enrols? key = some false

/-- The listener that a call registers when it is not registered, and that is not removed later. -/
def joins? (before after : List Call) : Call → Option Listener
  | .listen l => if enrolled before l.key || removed after l.key then none else some l
  | _ => none

/-- The listeners who join by calls made after others and stay, in the order in which they join. -/
def audience (before : List Call) : List Call → List Listener
  | [] => []
  | c :: cs => (c.joins? before cs).toList ++ audience (before ++ [c]) cs

theorem enrolled_concat (cs : List Call) (c : Call) (key : String) :
    enrolled (cs ++ [c]) key = (c.enrols? key).getD (enrolled cs key) := by
  unfold enrolled
  rw [List.filterMap_append]
  cases h : c.enrols? key with
  | none => simp [h]
  | some b => simp [h]

theorem removed_cons (c : Call) (cs : List Call) (key : String) :
    removed (c :: cs) key = (decide (c.enrols? key = some false) || removed cs key) :=
  rfl

end Call

/-! ### Registries -/

namespace Registry

variable (r : Registry)

theorem contains_register (l : Listener) (key : String) :
    (r.register l).2.contains key = ((Call.listen l).enrols? key).getD (r.contains key) := by
  unfold register Call.enrols?
  by_cases hkey : l.key = key
  · subst hkey
    cases h : r.contains l.key with
    | true => simp [h]
    | false => simp [contains]
  · cases h : r.contains l.key with
    | true => simp [hkey]
    | false => simp [contains, hkey]

theorem contains_deregister (other key : String) :
    (r.deregister other).2.contains key =
      ((Call.unlisten other).enrols? key).getD (r.contains key) := by
  unfold deregister Call.enrols?
  by_cases hkey : other = key
  · subst hkey
    simp [contains]
  · simp only [if_neg hkey, Option.getD_none]
    rw [Bool.eq_iff_iff]
    simp only [contains, List.any_eq_true, List.mem_filter, decide_eq_true_eq]
    refine exists_congr fun l => and_congr_left fun hl => and_iff_left ?_
    exact fun hother => hkey (hother.symm.trans hl)

theorem register_changes (l : Listener) : (r.register l).1 = true ↔ (r.register l).2 ≠ r := by
  unfold register
  split
  · simp
  · refine iff_of_true rfl fun h => ?_
    have hlength := congrArg (fun r : Registry => r.listeners.length) h
    simp at hlength

theorem deregister_changes (key : String) :
    (r.deregister key).1 = true ↔ (r.deregister key).2 ≠ r := by
  have hsame : (r.deregister key).2 = r ↔ r.contains key = false := by
    obtain ⟨ls⟩ := r
    simp only [deregister, contains, Registry.mk.injEq, List.filter_eq_self, List.any_eq_false]
    simp
  show r.contains key = true ↔ _
  rw [ne_eq, hsame, Bool.not_eq_false]

/-- No key is registered twice. -/
def Distinct (r : Registry) : Prop := (r.listeners.map Listener.key).Nodup

variable {r}

theorem Distinct.register (h : r.Distinct) (l : Listener) : (r.register l).2.Distinct := by
  unfold Registry.register
  split
  · exact h
  · rename_i hfresh
    rw [Distinct, List.map_append, List.nodup_append]
    refine ⟨h, by simp, fun key hkey other hother hsame => hfresh ?_⟩
    obtain ⟨l', hl', rfl⟩ := List.mem_map.mp hkey
    rw [List.mem_singleton.mp hother] at hsame
    exact List.any_eq_true.mpr ⟨l', hl', decide_eq_true hsame⟩

theorem Distinct.deregister (h : r.Distinct) (key : String) : (r.deregister key).2.Distinct :=
  List.Nodup.sublist (List.filter_sublist.map Listener.key) h

end Registry

/-! ### Calls and the registry -/

namespace Stage

theorem registry_act (st : Stage) (s : Session) (n : Node) :
    (st.act s n).1.registry = st.registry := by
  by_cases h : ∃ event, n.kind = .event event
  · obtain ⟨guid, position, text, kind⟩ := n
    obtain ⟨event, rfl⟩ := h
    rfl
  · exact registry_congr (st.plain_act s (not_exists.mp h))

end Stage

namespace Move

theorem registry_result (m : Move) : m.result.1.registry = m.stage.registry := by
  cases harr : m.arrival? with
  | none => rw [result_of_lost harr]
  | some n =>
    rw [result_of_arrival harr]
    exact Stage.registry_act _ _ n

theorem registry_advance (limit budget : Nat) (m : Move) :
    (Stage.advance limit budget m.stage m.session m.port).2.registry = m.stage.registry := by
  obtain ⟨l, hlast, hland⟩ := m.advance_eq_land limit budget
  have hmoves := forall_onward (P := fun x => x.stage.registry = m.stage.registry)
    (fun a b ha hab => by
      have hresult := a.registry_result
      rw [hab] at hresult
      exact hresult.trans ha) budget m rfl
  rw [hland, (l.land_frame limit).2.1, l.registry_result]
  exact hmoves l (List.mem_of_getLast? hlast)

end Move

namespace Turn

theorem registry_after (t : Turn) : t.after.registry =
    match t.call with
    | .listen l => (t.before.registry.register l).2
    | .unlisten key => (t.before.registry.deregister key).2
    | _ => t.before.registry := by
  have hsession : ∀ r, t.reply = .session r → t.after.registry = t.before.registry := by
    intro r hr
    obtain ⟨-, hafter⟩ | ⟨m, hm, hafter⟩ := advances_of_session hr
    · rw [hafter]
    · rw [hafter, m.registry_advance]
      rcases departure_stage hm with hstage | ⟨id, hstage⟩
      · rw [hstage]
      · rw [hstage]
        rfl
  have hstop : t.before.stop.registry = t.before.registry := t.before.stop_frame.2.1
  obtain ⟨st, c⟩ := t
  cases c with
  | register g =>
    show (st.register g).2.registry = st.registry
    unfold Stage.register
    split
    · split <;> rfl
    · rfl
  | unregister id =>
    show (if st.activeGraph? = some id then st.stop else st).registry = st.registry
    split
    · exact hstop
    · rfl
  | listen l => rfl
  | unlisten key => rfl
  | start id actor => exact hsession _ rfl
  | serve server => exact hsession _ rfl
  | select port => exact hsession _ rfl
  | stop => exact hstop
  | set name v => rfl
  | perform p => rfl

theorem contains_after (t : Turn) (key : String) : t.after.registry.contains key =
    (t.call.enrols? key).getD (t.before.registry.contains key) := by
  rw [registry_after]
  cases t.call with
  | listen l => exact t.before.registry.contains_register l key
  | unlisten other => exact t.before.registry.contains_deregister other key
  | _ => rfl

theorem distinct_registry (t : Turn) (h : t.before.registry.Distinct) :
    t.after.registry.Distinct := by
  rw [registry_after]
  cases t.call with
  | listen l => exact h.register l
  | unlisten key => exact h.deregister key
  | _ => exact h

theorem changes_iff {t : Turn} {changed : Bool} (h : t.reply = .listening changed) :
    changed = true ↔ t.after.registry ≠ t.before.registry := by
  rw [registry_after]
  obtain ⟨st, c⟩ := t
  cases c with
  | listen l =>
    obtain rfl := Reply.listening.inj h
    exact st.registry.register_changes l
  | unlisten key =>
    obtain rfl := Reply.listening.inj h
    exact st.registry.deregister_changes key
  | _ => cases h

end Turn

/-! ### The audience of a run -/

namespace Turn

theorem staying_after (t : Turn) (before after : List Call)
    (h : ∀ key, t.before.registry.contains key = Call.enrolled before key) :
    (t.after.registry.listeners.filter fun l => !Call.removed after l.key) =
      (t.before.registry.listeners.filter fun l => !Call.removed (t.call :: after) l.key) ++
        (t.call.joins? before after).toList := by
  rw [registry_after]
  obtain ⟨st, c⟩ := t
  have h : ∀ key, st.registry.contains key = Call.enrolled before key := h
  simp only [Call.removed_cons]
  cases c with
  | listen l =>
    have hnone : ∀ key, (Call.listen l).enrols? key ≠ some false := by
      intro key
      simp only [Call.enrols?]
      split <;> simp
    simp only [hnone, decide_false, Bool.false_or, Call.joins?, ← h, Registry.register]
    cases hold : st.registry.contains l.key with
    | true => simp
    | false => cases hstays : Call.removed after l.key <;> simp [hstays]
  | unlisten key =>
    have hsome : ∀ other, (Call.unlisten key).enrols? other = some false ↔ other = key := by
      intro other
      rw [eq_comm (a := other)]
      by_cases hkey : key = other <;> simp [Call.enrols?, hkey]
    simp only [Registry.deregister, List.filter_filter, Call.joins?, Option.toList_none,
      List.append_nil, hsome]
    congr 1
    funext l
    cases Call.removed after l.key <;> by_cases hkey : l.key = key <;> simp [hkey]
  | _ => simp [Call.enrols?, Call.joins?]

end Turn

namespace Stage

theorem listeners_after (cs : List Call) : ∀ (before : List Call) (st : Stage),
    (∀ key, st.registry.contains key = Call.enrolled before key) →
      (st.run cs).2.registry.listeners =
        (st.registry.listeners.filter fun l => !Call.removed cs l.key) ++ Call.audience before cs := by
  induction cs with
  | nil =>
    intro before st _
    rw [Call.audience, List.append_nil]
    exact (List.filter_eq_self.mpr fun _ _ => rfl).symm
  | cons c cs ih =>
    intro before st h
    have hafter : ∀ key,
        (st.call c).2.registry.contains key = Call.enrolled (before ++ [c]) key := by
      intro key
      rw [Call.enrolled_concat, ← h]
      exact Turn.contains_after ⟨st, c⟩ key
    have hstaying := Turn.staying_after ⟨st, c⟩ before cs h
    rw [run_cons, ih (before ++ [c]) _ hafter, Call.audience, ← List.append_assoc]
    exact congrArg (· ++ _) hstaying

/-- **The registry is the audience**, and holds no key twice. -/
theorem listeners_run (config : Config) (cs : List Call) :
    ((new config).run cs).2.registry.listeners = Call.audience [] cs ∧
      ((new config).run cs).2.registry.Distinct :=
  ⟨listeners_after cs [] (new config) fun _ => rfl,
    (forall_turns (P := fun st => st.registry.Distinct) Turn.distinct_registry cs (new config)
      List.nodup_nil).2⟩

end Stage

end Dialogue
