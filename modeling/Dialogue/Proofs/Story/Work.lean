import Dialogue.Proofs.Story.Live
import Dialogue.Listener

/-!
# Working on a scope

A script, and a listener that runs one, takes a scope through a list of scopes, one before and one
after each access (`Script.scopes`, `Registry.scopes`). Every one of them has been worked on only:
outlines, the owner of the template and what the host was told are as at first, and a template that
was coherent still is (`Scope.Worked`). So what holds of a scope by these facts holds at every moment
of a dispatch, in the middle of a listener as well.
-/

namespace Dialogue

/-! ### Reading a journal -/

def Entry.notice? : Entry → Option Notice
  | .told n => some n
  | _ => none

/-- The node that an entry says was entered. -/
def Entry.visit? : Entry → Option Guid
  | .entered node => some node
  | _ => none

namespace Journal

/-- All that the host was told, the earliest first. -/
def notices (j : Journal) : List Notice := j.reverse.filterMap Entry.notice?

/-- The nodes that were entered, the earliest first. -/
def visits (j : Journal) : List Guid := j.reverse.filterMap Entry.visit?

theorem notices_cons (e : Entry) (j : Journal) :
    notices (e :: j) = notices j ++ e.notice?.toList := by
  simp only [notices, List.reverse_cons, List.filterMap_append]
  cases h : e.notice? <;> simp [h]

theorem visits_cons (e : Entry) (j : Journal) : visits (e :: j) = visits j ++ e.visit?.toList := by
  simp only [visits, List.reverse_cons, List.filterMap_append]
  cases h : e.visit? <;> simp [h]

end Journal

/-! ### Work -/

/-- What reads, writes and listeners can make of a scope. -/
structure Scope.Worked (s t : Scope) : Prop where
  outline : t.blackboard.outline = s.blackboard.outline
  owner : t.active.map Prod.fst = s.active.map Prod.fst
  notices : Journal.notices t.journal = Journal.notices s.journal
  visits : Journal.visits t.journal = Journal.visits s.journal
  coherent : s.Coherent → t.Coherent

namespace Scope.Worked

theorem refl (s : Scope) : s.Worked s := ⟨rfl, rfl, rfl, rfl, id⟩

theorem trans {s t u : Scope} (h : s.Worked t) (h' : t.Worked u) : s.Worked u where
  outline := h'.outline.trans h.outline
  owner := h'.owner.trans h.owner
  notices := h'.notices.trans h.notices
  visits := h'.visits.trans h.visits
  coherent := fun hs => h'.coherent (h.coherent hs)

theorem set (s : Scope) (name : String) (v : PropertyValue) : s.Worked (s.set name v).2 := by
  cases hset : s.blackboard.set name v with
  | error e =>
    rw [set_of_error hset]
    exact .refl s
  | ok r =>
    have hcoherent : s.Coherent → (s.set name v).2.Coherent := fun h => h.set name v
    rw [set_of_ok hset] at hcoherent ⊢
    refine ⟨Blackboard.outline_of_set hset, ?_, ?_, ?_, hcoherent⟩
    · simp only [refresh, Option.map_map]
      congr 1
      funext a
      simp only [Function.comp_apply]
      split <;> rfl
    · simp [Journal.notices_cons, Entry.notice?]
    · simp [Journal.visits_cons, Entry.visit?]

theorem handled (s : Scope) (key event : String) (report : List Outcome) :
    s.Worked { s with journal := .handled key event report :: s.journal } := by
  refine ⟨rfl, rfl, ?_, ?_, id⟩
  · simp [Journal.notices_cons, Entry.notice?]
  · simp [Journal.visits_cons, Entry.visit?]

end Scope.Worked

/-! ### Scripts -/

namespace Script

/-- The scopes before and after each access of a script. -/
def scopes {α : Type} : Script α → Scope → List Scope
  | done _, s => [s]
  | get name next, s => s :: (next (s.get name)).scopes s
  | set name v next, s => s :: (next (s.set name v).1).scopes (s.set name v).2
  | remember next, s => (next s.journal.heard).scopes s

theorem run_mem_scopes {α : Type} (p : Script α) (s : Scope) : (p.run s).2 ∈ p.scopes s := by
  induction p generalizing s with
  | done a => exact List.mem_singleton.mpr rfl
  | get name next ih => exact List.mem_cons_of_mem _ (ih _ _)
  | set name v next ih => exact List.mem_cons_of_mem _ (ih _ _)
  | remember next ih => exact ih _ _

theorem worked_of_mem_scopes {α : Type} (p : Script α) {s t : Scope} (h : t ∈ p.scopes s) :
    s.Worked t := by
  induction p generalizing s with
  | done a =>
    rw [List.mem_singleton.mp h]
    exact .refl s
  | get name next ih =>
    rcases List.mem_cons.mp h with rfl | h
    · exact .refl t
    · exact ih _ h
  | set name v next ih =>
    rcases List.mem_cons.mp h with rfl | h
    · exact .refl t
    · exact (Scope.Worked.set s name v).trans (ih _ h)
  | remember next ih => exact ih _ h

theorem worked_run {α : Type} (p : Script α) (s : Scope) : s.Worked (p.run s).2 :=
  p.worked_of_mem_scopes (p.run_mem_scopes s)

end Script

/-! ### Dispatches -/

namespace Registry

/-- The scopes that listeners take a scope through when they handle an event in turn. -/
def scopesOf (event : String) : List Listener → Scope → List Scope
  | [], s => [s]
  | l :: ls, s =>
    (if l.hears event then (l.handler event).scopes s else [s]) ++
      scopesOf event ls (handle event s l)

/-- The scopes of a dispatch, before and after each access of each listener. -/
def scopes (r : Registry) (event : String) (s : Scope) : List Scope :=
  scopesOf event r.listeners s

theorem worked_handle (event : String) (s : Scope) (l : Listener) :
    s.Worked (handle event s l) := by
  unfold handle
  split
  · exact ((l.handler event).worked_run s).trans (.handled _ _ _ _)
  · exact .refl s

theorem foldl_mem_scopesOf (event : String) (ls : List Listener) (s : Scope) :
    ls.foldl (handle event) s ∈ scopesOf event ls s := by
  induction ls generalizing s with
  | nil => exact List.mem_singleton.mpr rfl
  | cons l ls ih => exact List.mem_append_right _ (ih _)

theorem dispatch_mem_scopes (r : Registry) (event : String) (s : Scope) :
    r.dispatch event s ∈ r.scopes event s :=
  foldl_mem_scopesOf event r.listeners s

theorem worked_of_mem_scopesOf {event : String} {ls : List Listener} {s t : Scope}
    (h : t ∈ scopesOf event ls s) : s.Worked t := by
  induction ls generalizing s with
  | nil =>
    rw [List.mem_singleton.mp h]
    exact .refl s
  | cons l ls ih =>
    rcases List.mem_append.mp h with h | h
    · split at h
      · exact (l.handler event).worked_of_mem_scopes h
      · rw [List.mem_singleton.mp h]
        exact .refl s
    · exact (worked_handle event s l).trans (ih h)

theorem worked_of_mem_scopes {r : Registry} {event : String} {s t : Scope}
    (h : t ∈ r.scopes event s) : s.Worked t :=
  worked_of_mem_scopesOf h

theorem worked_dispatch (r : Registry) (event : String) (s : Scope) :
    s.Worked (r.dispatch event s) :=
  worked_of_mem_scopes (r.dispatch_mem_scopes event s)

end Registry

end Dialogue
