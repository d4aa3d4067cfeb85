import Dialogue.Proofs.Graph.Links

/-!
# Links that dangle

A link with a missing end leads nowhere. Were such links taken away (`Graph.pruned`), every port
that leads somewhere would lead there still; but a port takes the first link on it before it looks
for the target, so a link that dangles also keeps the later links on its port from being followed. A
port is blocked in this way when its first link dangles and a later one does not (`Graph.Blocked`),
and the blocked ports are exactly those that lead elsewhere once the dangling links are gone
(`next?_pruned_iff`).
-/

namespace Dialogue.Graph

/-- The graph without the links that have a missing end. -/
def pruned (g : Graph) : Graph := { g with links := g.links.filter g.resolves }

/-- The links on a port of a node, in the order of declaration. -/
def onPort (g : Graph) (u : Guid) (port : PortIndex) : List Link :=
  (g.outgoing u).filter fun l => l.port = port

/-- The first link on a port dangles, and a later one does not. -/
def Blocked (g : Graph) (u : Guid) (port : PortIndex) : Prop :=
  ∃ l later, g.onPort u port = l :: later ∧ g.resolves l = false ∧ ∃ k ∈ later, g.resolves k = true

section

variable {g : Graph} {u : Guid} {port : PortIndex}

theorem mem_onPort {l : Link} :
    l ∈ g.onPort u port ↔ l ∈ g.links ∧ l.outNode = u ∧ l.port = port := by
  simp only [onPort, outgoing, List.mem_filter, decide_eq_true_eq, and_assoc]

theorem next?_eq_head? (g : Graph) (u : Guid) (port : PortIndex) :
    g.next? u port = (g.onPort u port).head?.bind fun l => g.node? l.inNode := by
  rw [next?, onPort, List.head?_filter]

theorem onPort_pruned (g : Graph) (u : Guid) (port : PortIndex) :
    g.pruned.onPort u port = (g.onPort u port).filter g.resolves := by
  simp only [onPort, outgoing, pruned, List.filter_filter]
  refine List.filter_congr fun l _ => ?_
  rw [← Bool.and_assoc, Bool.and_comm]

theorem next?_pruned (g : Graph) (u : Guid) (port : PortIndex) : g.pruned.next? u port =
    ((g.onPort u port).find? g.resolves).bind fun l => g.node? l.inNode := by
  rw [next?_eq_head?, onPort_pruned, List.head?_filter]
  rfl

theorem resolves_iff_of_mem (hu : g.contains u = true) {l : Link} (hl : l ∈ g.onPort u port) :
    g.resolves l = true ↔ ∃ n, g.node? l.inNode = some n := by
  obtain ⟨-, rfl, -⟩ := mem_onPort.mp hl
  rw [resolves, hu, Bool.true_and]
  exact contains_iff

theorem node?_of_dangling (hu : g.contains u = true) {l : Link} (hl : l ∈ g.onPort u port)
    (hdangles : g.resolves l = false) : g.node? l.inNode = none := by
  rw [Option.eq_none_iff_forall_ne_some]
  intro n hn
  have hresolves := (resolves_iff_of_mem hu hl).mpr ⟨n, hn⟩
  rw [hdangles] at hresolves
  cases hresolves

theorem Blocked.next? (h : g.Blocked u port) (hu : g.contains u = true) :
    g.next? u port = none ∧ ∃ k ∈ g.onPort u port, ∃ n,
      (g.onPort u port).find? g.resolves = some k ∧ g.node? k.inNode = some n ∧
        g.pruned.next? u port = some n := by
  obtain ⟨l, later, hlinks, hdangles, k, hk, hresolves⟩ := h
  have hfirst : l ∈ g.onPort u port := by
    rw [hlinks]
    exact List.mem_cons_self
  obtain ⟨x, hx⟩ : ∃ x, (g.onPort u port).find? g.resolves = some x := by
    rw [← Option.isSome_iff_exists, List.find?_isSome, hlinks]
    exact ⟨k, List.mem_cons_of_mem l hk, hresolves⟩
  have hmem := List.mem_of_find?_eq_some hx
  obtain ⟨n, hn⟩ := (resolves_iff_of_mem hu hmem).mp (List.find?_some hx)
  refine ⟨?_, x, hmem, n, hx, hn, ?_⟩
  · rw [next?_eq_head?, hlinks]
    exact node?_of_dangling hu hfirst hdangles
  · rw [next?_pruned, hx]
    exact hn

theorem next?_pruned_of_not_blocked (hu : g.contains u = true) (h : ¬ g.Blocked u port) :
    g.pruned.next? u port = g.next? u port := by
  rw [next?_pruned, next?_eq_head?]
  cases hlinks : g.onPort u port with
  | nil => rfl
  | cons l later =>
    cases hresolves : g.resolves l with
    | true => rw [List.find?_cons_of_pos hresolves, List.head?_cons]
    | false =>
      have hfirst : l ∈ g.onPort u port := by
        rw [hlinks]
        exact List.mem_cons_self
      have hnone : later.find? g.resolves = none := by
        rw [List.find?_eq_none]
        intro k hk hgood
        exact h ⟨l, later, hlinks, hresolves, k, hk, hgood⟩
      rw [List.find?_cons_of_neg (by simp [hresolves]), hnone, List.head?_cons]
      exact (node?_of_dangling hu hfirst hresolves).symm

end

/-- **A dangling link is as good as absent unless it blocks a port.** A port of a node leads the
same way with and without the links that dangle, except when the first link on it dangles and a
later one does not: then it leads nowhere, while without the dangling links it leads to the target
of the first link that has one. -/
theorem next?_pruned_iff (g : Graph) {u : Guid} (hu : g.contains u = true) (port : PortIndex) :
    (g.next? u port = g.pruned.next? u port ↔ ¬ g.Blocked u port) ∧
      (g.Blocked u port → g.next? u port = none ∧ ∃ k ∈ g.links, ∃ n,
        k.outNode = u ∧ k.port = port ∧ g.node? k.inNode = some n ∧
          (g.onPort u port).find? g.resolves = some k ∧ g.pruned.next? u port = some n) := by
  refine ⟨⟨fun hsame hblocked => ?_, fun h => (next?_pruned_of_not_blocked hu h).symm⟩,
    fun hblocked => ?_⟩
  · obtain ⟨hnone, -, -, n, -, -, hpruned⟩ := hblocked.next? hu
    rw [hnone, hpruned] at hsame
    cases hsame
  · obtain ⟨hnone, k, hk, n, hfirst, hn, hpruned⟩ := hblocked.next? hu
    obtain ⟨hmem, hout, hport⟩ := mem_onPort.mp hk
    exact ⟨hnone, k, hmem, n, hout, hport, hn, hfirst, hpruned⟩

/-- A bridge that is gone, and a ferry to the same side. -/
def crossing : Graph :=
  ⟨⟨33⟩, ⟨"start"⟩, .origin, [.ofKind ⟨"shore"⟩ "The other side." (.basic none)],
    [⟨⟨"start"⟩, ⟨"bridge"⟩, 0⟩, ⟨⟨"start"⟩, ⟨"shore"⟩, 0⟩, ⟨⟨"shore"⟩, ⟨"bridge"⟩, 0⟩], []⟩

/-- The way from the start is blocked, and the way on from the shore is not. -/
theorem next?_pruned_iff_crossing : crossing.contains ⟨"start"⟩ = true ∧
    crossing.contains ⟨"shore"⟩ = true ∧ crossing.next? ⟨"start"⟩ 0 = none ∧
      crossing.next? ⟨"shore"⟩ 0 = crossing.pruned.next? ⟨"shore"⟩ 0 := by
  have hstart : crossing.contains ⟨"start"⟩ = true := by decide
  have hshore : crossing.contains ⟨"shore"⟩ = true := by decide
  have hblocked : crossing.Blocked ⟨"start"⟩ 0 :=
    ⟨_, _, rfl, by decide, ⟨⟨"start"⟩, ⟨"shore"⟩, 0⟩, by decide, by decide⟩
  refine ⟨hstart, hshore, ((next?_pruned_iff crossing hstart 0).2 hblocked).1,
    (next?_pruned_iff crossing hshore 0).1.mpr ?_⟩
  rintro ⟨l, later, hlinks, -, k, hk, -⟩
  obtain ⟨rfl, rfl⟩ := List.cons.inj (hlinks : [_] = l :: later)
  exact absurd hk List.not_mem_nil

/-- **The bridge that is gone is not as good as absent**: without it the ferry is taken. -/
theorem dangling_link_blocks : crossing.contains ⟨"start"⟩ = true ∧
    crossing.next? ⟨"start"⟩ 0 = none ∧
      crossing.pruned.next? ⟨"start"⟩ 0 =
        some (.ofKind ⟨"shore"⟩ "The other side." (.basic none)) := by
  decide

end Dialogue.Graph
