import Dialogue.Proofs.Story.Outline
import Mathlib.Data.List.Nodup

/-!
# Links in order

Checking goes through the links once and remembers which ports are bound, and following a port takes
the first link on it and then looks for the target. `validate_eq_ok_iff` says what checking accepts
without going through anything: every link resolves, and no port has two (`Graph.InOrder`). On such a
graph every link leads to its target (`InOrder.next?_of_mem`), and a port leads nowhere only if no
link is declared on it (`InOrder.undeclared`).
-/

namespace Dialogue

/-- The node and the port that a link leaves by. -/
def Link.outlet (l : Link) : Guid × PortIndex := (l.outNode, l.port)

namespace Graph

/-- Both ends of every link are nodes, and no two links leave by one port. -/
structure InOrder (g : Graph) : Prop where
  resolved : ∀ l ∈ g.links, g.resolves l = true
  single : (g.links.map Link.outlet).Nodup

/-! ### What checking accepts -/

theorem checkLinks_eq_ok_iff (g : Graph) (bound : List (Guid × PortIndex)) (ls : List Link) :
    g.checkLinks bound ls = .ok () ↔ (∀ l ∈ ls, g.resolves l = true) ∧
      (ls.map Link.outlet).Nodup ∧ ∀ l ∈ ls, l.outlet ∉ bound := by
  induction ls generalizing bound with
  | nil => simp [checkLinks]
  | cons l ls ih =>
    by_cases hresolves : g.resolves l = true
    · by_cases hbound : l.outlet ∈ bound
      · have hcheck : g.checkLinks bound (l :: ls) = .error (.duplicatePort l.outNode l.port) := by
          rw [checkLinks, hresolves, if_neg (by simp)]
          exact if_pos hbound
        rw [hcheck]
        refine iff_of_false (by simp) fun h => ?_
        exact h.2.2 l List.mem_cons_self hbound
      · have hcheck : g.checkLinks bound (l :: ls) = g.checkLinks (l.outlet :: bound) ls := by
          rw [checkLinks, hresolves, if_neg (by simp)]
          exact if_neg hbound
        rw [hcheck, ih]
        simp only [List.map_cons, List.nodup_cons, List.mem_cons, List.mem_map, not_or, not_exists,
          not_and, forall_eq_or_imp, forall_and]
        constructor
        · rintro ⟨hall, hnodup, hfresh, hrest⟩
          exact ⟨⟨hresolves, hall⟩, ⟨fun x hx h => hfresh x hx h, hnodup⟩, hbound, hrest⟩
        · rintro ⟨⟨-, hall⟩, ⟨hfresh, hnodup⟩, -, hrest⟩
          exact ⟨hall, hnodup, fun x hx h => hfresh x hx h, hrest⟩
    · have hcheck : g.checkLinks bound (l :: ls) = .error (.danglingLink l) := by
        rw [checkLinks, if_pos (by simpa using hresolves)]
      rw [hcheck]
      refine iff_of_false (by simp) fun h => ?_
      exact hresolves (h.1 l List.mem_cons_self)

theorem validate_eq_ok_iff {g : Graph} : g.validate = .ok () ↔ g.InOrder := by
  rw [validate, checkLinks_eq_ok_iff]
  constructor
  · rintro ⟨hresolved, hsingle, -⟩
    exact ⟨hresolved, hsingle⟩
  · rintro ⟨hresolved, hsingle⟩
    exact ⟨hresolved, hsingle, fun _ _ => List.not_mem_nil⟩

theorem inOrder_of_outline {g g' : Graph} (h : g'.outline = g.outline) :
    g'.InOrder ↔ g.InOrder := by
  have houtline : ∀ g : Graph, g.outline.InOrder ↔ g.InOrder :=
    fun g => ⟨fun h => ⟨h.resolved, h.single⟩, fun h => ⟨h.resolved, h.single⟩⟩
  rw [← houtline, h, houtline]

/-! ### Following ports -/

theorem contains_iff {g : Graph} {u : Guid} : g.contains u = true ↔ ∃ n, g.node? u = some n := by
  rw [contains_eq, Option.isSome_iff_exists]

namespace InOrder

variable {g : Graph}

theorem ends (h : g.InOrder) {l : Link} (hl : l ∈ g.links) :
    (∃ n, g.node? l.outNode = some n) ∧ ∃ n, g.node? l.inNode = some n := by
  have hresolved := h.resolved l hl
  rw [resolves, Bool.and_eq_true] at hresolved
  exact ⟨contains_iff.mp hresolved.1, contains_iff.mp hresolved.2⟩

theorem find?_of_mem (h : g.InOrder) {l : Link} (hl : l ∈ g.links) :
    (g.outgoing l.outNode).find? (fun x => x.port = l.port) = some l := by
  obtain ⟨x, hx⟩ : ∃ x, (g.outgoing l.outNode).find? (fun x => x.port = l.port) = some x := by
    rw [← Option.isSome_iff_exists, List.find?_isSome]
    exact ⟨l, List.mem_filter.mpr ⟨hl, by simp⟩, by simp⟩
  obtain ⟨hmem, hleaves⟩ := List.mem_filter.mp (List.mem_of_find?_eq_some hx)
  have hout : x.outNode = l.outNode := by simpa using hleaves
  have hport : x.port = l.port := by simpa using List.find?_some hx
  have hsame : x.outlet = l.outlet := Prod.ext hout hport
  rw [hx, List.inj_on_of_nodup_map h.single hmem hl hsame]

/-- **Every link leads to its target.** -/
theorem next?_of_mem (h : g.InOrder) {l : Link} (hl : l ∈ g.links) : ∃ n,
    g.next? l.outNode l.port = some n ∧ g.node? l.inNode = some n ∧ n.guid = l.inNode := by
  obtain ⟨n, hn⟩ := (h.ends hl).2
  refine ⟨n, ?_, hn, guid_of_node? hn⟩
  rw [next?, h.find?_of_mem hl]
  exact hn

theorem next?_eq_some_iff (h : g.InOrder) {u : Guid} {port : PortIndex} {n : Node} :
    g.next? u port = some n ↔
      ∃ l ∈ g.links, l.outNode = u ∧ l.port = port ∧ g.node? l.inNode = some n := by
  constructor
  · intro hnext
    obtain ⟨l, hfound, hnode⟩ := Option.bind_eq_some_iff.mp hnext
    obtain ⟨hmem, hleaves⟩ := List.mem_filter.mp (List.mem_of_find?_eq_some hfound)
    exact ⟨l, hmem, by simpa using hleaves, by simpa using List.find?_some hfound, hnode⟩
  · rintro ⟨l, hl, rfl, rfl, hnode⟩
    rw [next?, h.find?_of_mem hl]
    exact hnode

theorem of_perm (h : g.InOrder) {g' : Graph} (hentry : g'.entryGuid = g.entryGuid)
    (hbody : g'.body = g.body) (hlinks : g'.links.Perm g.links) : g'.InOrder := by
  have hcontains : ∀ u, g'.contains u = g.contains u := by
    intro u
    simp only [contains, nodes, List.any_cons, hbody, entry, hentry]
  refine ⟨fun l hl => ?_, ?_⟩
  · rw [resolves, hcontains, hcontains]
    exact h.resolved l (hlinks.mem_iff.mp hl)
  · exact (hlinks.map Link.outlet).nodup_iff.mpr h.single

theorem next?_perm (h : g.InOrder) {g' : Graph} (h' : g'.InOrder) (hnodes : g'.node? = g.node?)
    (hlinks : g'.links.Perm g.links) (u : Guid) (port : PortIndex) :
    g'.next? u port = g.next? u port := by
  refine Option.ext fun n => ?_
  rw [h.next?_eq_some_iff, h'.next?_eq_some_iff, hnodes]
  simp only [hlinks.mem_iff]

theorem undeclared (h : g.InOrder) {u : Guid} {port : PortIndex} (hnext : g.next? u port = none) :
    ∀ l ∈ g.links, ¬ (l.outNode = u ∧ l.port = port) := by
  rintro l hl ⟨rfl, rfl⟩
  obtain ⟨n, hn, -⟩ := h.next?_of_mem hl
  rw [hnext] at hn
  simp at hn

end InOrder

end Graph

end Dialogue
