import Dialogue.Proofs.Graph.Building
import Dialogue.Proofs.Graph.Links
import Dialogue.Document
import Mathlib.Data.List.Induction

/-!
# The first fault

Checking links and loading records both go through a list, judge each element by those before it,
and stop at the first that has a fault (`firstFault?`). What they remember on the way, bound ports
or a graph under construction, stands for the elements gone through (`failure?_checkLinks`,
`failure?_insertNodes`). So both are decided by conditions on the whole list, and the fault reported
is that of the one element that has a fault after elements without (`validate_exact`,
`ofDocument_exact`).
-/

namespace Dialogue

/-! ### Stopping at the first fault -/

/-- What a result fails with. -/
def failure? {ε α : Type} : Except ε α → Option ε
  | .error e => some e
  | .ok _ => none

theorem failure?_eq_some_iff {ε α : Type} {x : Except ε α} {e : ε} :
    failure? x = some e ↔ x = .error e := by
  cases x <;> simp [failure?]

theorem failure?_eq_none_iff {ε α : Type} {x : Except ε α} :
    failure? x = none ↔ ∃ a, x = .ok a := by
  cases x <;> simp [failure?]

section

variable {α ε : Type} {fault? : List α → α → Option ε} {earlier xs : List α} {x : α} {e : ε}

/-- The first fault in a list that comes after other elements, where an element is judged by all
elements before it. -/
def firstFault? (fault? : List α → α → Option ε) (earlier : List α) : List α → Option ε
  | [] => none
  | x :: xs =>
    match fault? earlier x with
    | some e => some e
    | none => firstFault? fault? (earlier ++ [x]) xs

theorem firstFault?_of_fault (h : fault? earlier x = some e) (xs : List α) :
    firstFault? fault? earlier (x :: xs) = some e := by
  rw [firstFault?, h]

theorem firstFault?_of_none (h : fault? earlier x = none) (xs : List α) :
    firstFault? fault? earlier (x :: xs) = firstFault? fault? (earlier ++ [x]) xs := by
  rw [firstFault?, h]

theorem firstFault?_append_eq_none_iff {ys : List α} :
    firstFault? fault? earlier (xs ++ ys) = none ↔
      firstFault? fault? earlier xs = none ∧ firstFault? fault? (earlier ++ xs) ys = none := by
  induction xs generalizing earlier with
  | nil => simp [firstFault?]
  | cons x xs ih =>
    cases hx : fault? earlier x with
    | some e => simp [firstFault?_of_fault hx]
    | none =>
      rw [List.cons_append, firstFault?_of_none hx, firstFault?_of_none hx, ih,
        List.append_assoc, List.singleton_append]

theorem firstFault?_concat_eq_none_iff : firstFault? fault? [] (xs ++ [x]) = none ↔
    firstFault? fault? [] xs = none ∧ fault? xs x = none := by
  rw [firstFault?_append_eq_none_iff, List.nil_append]
  refine and_congr_right fun _ => ?_
  cases hx : fault? xs x with
  | some e => simp [firstFault?_of_fault hx]
  | none => rw [firstFault?_of_none hx, firstFault?]

/-- **The first fault is that of an element after elements without a fault.** -/
theorem firstFault?_eq_some_iff : firstFault? fault? earlier xs = some e ↔
    ∃ before x after, xs = before ++ x :: after ∧ firstFault? fault? earlier before = none ∧
      fault? (earlier ++ before) x = some e := by
  induction xs generalizing earlier with
  | nil => simp [firstFault?]
  | cons x xs ih =>
    cases hx : fault? earlier x with
    | some e' =>
      rw [firstFault?_of_fault hx]
      constructor
      · rintro ⟨⟩
        exact ⟨[], x, xs, rfl, rfl, by rwa [List.append_nil]⟩
      · rintro ⟨before, y, after, hxs, hbefore, hy⟩
        cases before with
        | nil =>
          obtain ⟨rfl, rfl⟩ := List.cons.inj hxs
          rw [← hx, ← hy, List.append_nil]
        | cons z before =>
          obtain ⟨rfl, rfl⟩ := List.cons.inj hxs
          rw [firstFault?_of_fault hx] at hbefore
          cases hbefore
    | none =>
      rw [firstFault?_of_none hx, ih]
      constructor
      · rintro ⟨before, y, after, rfl, hbefore, hy⟩
        refine ⟨x :: before, y, after, rfl, ?_, ?_⟩
        · rwa [firstFault?_of_none hx]
        · rwa [List.append_assoc, List.singleton_append] at hy
      · rintro ⟨before, y, after, hxs, hbefore, hy⟩
        cases before with
        | nil =>
          obtain ⟨rfl, rfl⟩ := List.cons.inj hxs
          rw [List.append_nil, hx] at hy
          cases hy
        | cons z before =>
          obtain ⟨rfl, rfl⟩ := List.cons.inj hxs
          rw [firstFault?_of_none hx] at hbefore
          refine ⟨before, y, after, rfl, hbefore, ?_⟩
          rwa [List.append_assoc, List.singleton_append]

end

/-! ### Links -/

namespace Graph

/-- Both ends of a link are nodes. -/
def HasEnds (g : Graph) (l : Link) : Prop :=
  l.outNode ∈ g.nodes.map Node.guid ∧ l.inNode ∈ g.nodes.map Node.guid

theorem contains_iff_mem {g : Graph} {u : Guid} :
    g.contains u = true ↔ u ∈ g.nodes.map Node.guid := by
  simp [contains]

theorem resolves_iff {g : Graph} {l : Link} : g.resolves l = true ↔ g.HasEnds l := by
  rw [resolves, Bool.and_eq_true, contains_iff_mem, contains_iff_mem]
  rfl

/-- The fault of a link that comes after others. -/
def linkFault? (g : Graph) (earlier : List Link) (l : Link) : Option GraphError :=
  if !g.resolves l then some (.danglingLink l)
  else if earlier.any fun k => k.outlet = l.outlet then some (.duplicatePort l.outNode l.port)
  else none

section

variable {g : Graph} {earlier : List Link} {l : Link}

theorem any_outlet_iff :
    (earlier.any fun k => k.outlet = l.outlet) = true ↔ ∃ k ∈ earlier, k.outlet = l.outlet := by
  simp

theorem linkFault?_of_dangling (h : ¬ g.HasEnds l) :
    g.linkFault? earlier l = some (.danglingLink l) := by
  rw [← resolves_iff, Bool.not_eq_true] at h
  rw [linkFault?, h]
  rfl

theorem linkFault?_of_bound (h : g.HasEnds l) (hport : ∃ k ∈ earlier, k.outlet = l.outlet) :
    g.linkFault? earlier l = some (.duplicatePort l.outNode l.port) := by
  rw [linkFault?, resolves_iff.mpr h, any_outlet_iff.mpr hport]
  rfl

theorem linkFault?_of_free (h : g.HasEnds l) (hport : ¬ ∃ k ∈ earlier, k.outlet = l.outlet) :
    g.linkFault? earlier l = none := by
  rw [← any_outlet_iff, Bool.not_eq_true] at hport
  rw [linkFault?, resolves_iff.mpr h, hport]
  rfl

theorem linkFault?_eq_some_iff {e : GraphError} :
    g.linkFault? earlier l = some e ↔ (¬ g.HasEnds l ∧ e = .danglingLink l) ∨
      (g.HasEnds l ∧ (∃ k ∈ earlier, k.outlet = l.outlet) ∧
        e = .duplicatePort l.outNode l.port) := by
  by_cases hends : g.HasEnds l
  · by_cases hport : ∃ k ∈ earlier, k.outlet = l.outlet
    · rw [linkFault?_of_bound hends hport, Option.some_inj, eq_comm]
      simp only [hends, hport, not_true_eq_false, false_and, false_or, true_and]
    · rw [linkFault?_of_free hends hport]
      simp only [hends, hport, not_true_eq_false, false_and, and_false, or_false, reduceCtorEq]
  · rw [linkFault?_of_dangling hends, Option.some_inj, eq_comm]
    simp only [hends, not_false_eq_true, true_and, false_and, or_false]

/-- The ports remembered are those of the links gone through. -/
theorem failure?_checkLinks {ls : List Link} {bound : List (Guid × PortIndex)}
    (h : ∀ o, o ∈ bound ↔ ∃ k ∈ earlier, k.outlet = o) :
    failure? (g.checkLinks bound ls) = firstFault? g.linkFault? earlier ls := by
  induction ls generalizing earlier bound with
  | nil => rfl
  | cons l ls ih =>
    rw [checkLinks]
    split
    · rename_i hends
      have hfault : g.linkFault? earlier l = some (.danglingLink l) :=
        linkFault?_of_dangling (by simpa [← resolves_iff] using hends)
      rw [firstFault?_of_fault hfault]
      rfl
    · rename_i hends
      have hends : g.HasEnds l := by simpa [resolves_iff] using hends
      by_cases hport : (l.outNode, l.port) ∈ bound
      · rw [if_pos hport, firstFault?_of_fault (linkFault?_of_bound hends ((h _).mp hport))]
        rfl
      · rw [if_neg hport, firstFault?_of_none (linkFault?_of_free hends (mt (h _).mpr hport))]
        refine ih fun o => ?_
        rw [List.mem_cons, h o, or_comm]
        simp [Link.outlet, or_and_right, exists_or, eq_comm]

end

theorem checkLinks_nil_eq_ok_iff {g : Graph} {ls : List Link} : g.checkLinks [] ls = .ok () ↔
    (∀ l ∈ ls, g.HasEnds l) ∧ ls.Pairwise fun k l => k.outlet ≠ l.outlet := by
  rw [checkLinks_eq_ok_iff, List.Nodup, List.pairwise_map]
  simp [resolves_iff]

theorem firstFault?_links_eq_none_iff {g : Graph} {ls : List Link} :
    firstFault? g.linkFault? [] ls = none ↔
      (∀ l ∈ ls, g.HasEnds l) ∧ ls.Pairwise fun k l => k.outlet ≠ l.outlet := by
  have hscan : failure? (g.checkLinks [] ls) = firstFault? g.linkFault? [] ls :=
    failure?_checkLinks (by simp)
  rw [← hscan, failure?_eq_none_iff, ← checkLinks_nil_eq_ok_iff]
  exact ⟨fun ⟨_, h⟩ => h, fun h => ⟨_, h⟩⟩

/-- **Checking is exact.** A graph passes just if both ends of every link are nodes and no two links
leave by one port. Otherwise the first link that has a missing end, or leaves by the port of a link
before it, is reported: for the end if one is missing, and else for the port. -/
theorem validate_exact (g : Graph) :
    (g.validate = .ok () ↔
      (∀ l ∈ g.links, g.HasEnds l) ∧ g.links.Pairwise fun k l => k.outlet ≠ l.outlet) ∧
    ∀ e, g.validate = .error e ↔ ∃ before l after, g.links = before ++ l :: after ∧
      (∀ k ∈ before, g.HasEnds k) ∧ (before.Pairwise fun k l => k.outlet ≠ l.outlet) ∧
      ((¬ g.HasEnds l ∧ e = .danglingLink l) ∨
        (g.HasEnds l ∧ (∃ k ∈ before, k.outlet = l.outlet) ∧
          e = .duplicatePort l.outNode l.port)) := by
  refine ⟨checkLinks_nil_eq_ok_iff, fun e => ?_⟩
  have hfirst : failure? g.validate = firstFault? g.linkFault? [] g.links :=
    failure?_checkLinks (by simp)
  rw [← failure?_eq_some_iff, hfirst, firstFault?_eq_some_iff]
  simp only [firstFault?_links_eq_none_iff, List.nil_append, linkFault?_eq_some_iff, and_assoc]

end Graph

/-! ### Records -/

/-- A record of a node of any kind. -/
inductive Record where
  | basic (r : BasicRecord)
  | choice (r : ChoiceRecord)
  | condition (r : ConditionRecord)
  | focus (r : FocusRecord)
  | event (r : EventRecord)
  | exit (r : ExitRecord)

namespace Record

def guid : Record → Guid
  | basic r => r.guid
  | choice r => r.guid
  | condition r => r.guid
  | focus r => r.guid
  | event r => r.guid
  | exit r => r.guid

/-- The focus number of a record, if it stands for nothing. -/
def misfocus? : Record → Option Int32
  | basic r =>
    if r.focusChoice = 0 ∨ r.focusChoice = 1 ∨ r.focusChoice = 2 then none else some r.focusChoice
  | focus r => if r.focusChoice = 0 ∨ r.focusChoice = 1 then none else some r.focusChoice
  | _ => none

def node : Record → Except GraphError Node
  | basic r => r.node
  | choice r => r.node
  | condition r => r.node
  | focus r => r.node
  | event r => r.node
  | exit r => r.node

theorem misfocus?_basic_eq_none_iff {r : BasicRecord} : (basic r).misfocus? = none ↔
    r.focusChoice = 0 ∨ r.focusChoice = 1 ∨ r.focusChoice = 2 := by
  rw [misfocus?]
  split
  · rename_i hfocus
    exact iff_of_true rfl hfocus
  · rename_i hfocus
    exact iff_of_false nofun hfocus

theorem misfocus?_focus_eq_none_iff {r : FocusRecord} : (focus r).misfocus? = none ↔
    r.focusChoice = 0 ∨ r.focusChoice = 1 := by
  rw [misfocus?]
  split
  · rename_i hfocus
    exact iff_of_true rfl hfocus
  · rename_i hfocus
    exact iff_of_false nofun hfocus

theorem node_of_misfocus {r : Record} {number : Int32} (h : r.misfocus? = some number) :
    r.node = .error (.invalidFocusChoice r.guid number) := by
  cases r with
  | basic r =>
    have hfocus : ¬ (r.focusChoice = 0 ∨ r.focusChoice = 1 ∨ r.focusChoice = 2) := by
      rw [← misfocus?_basic_eq_none_iff, h]
      simp
    rw [misfocus?, if_neg hfocus] at h
    cases h
    rw [not_or, not_or] at hfocus
    simp [node, BasicRecord.node, FocusTarget.ofLineChoice?, hfocus, guid]
  | focus r =>
    have hfocus : ¬ (r.focusChoice = 0 ∨ r.focusChoice = 1) := by
      rw [← misfocus?_focus_eq_none_iff, h]
      simp
    rw [misfocus?, if_neg hfocus] at h
    cases h
    rw [not_or] at hfocus
    simp [node, FocusRecord.node, FocusTarget.ofChoice?, hfocus, guid]
  | _ => cases h

theorem exists_node {r : Record} (h : r.misfocus? = none) :
    ∃ n, r.node = .ok n ∧ n.guid = r.guid ∧ n.isEntry = false := by
  cases r with
  | basic r =>
    rcases misfocus?_basic_eq_none_iff.mp h with hfocus | hfocus | hfocus
    · exact ⟨_, by rw [node, BasicRecord.node, hfocus]; rfl, rfl, rfl⟩
    · exact ⟨_, by rw [node, BasicRecord.node, hfocus]; rfl, rfl, rfl⟩
    · exact ⟨_, by rw [node, BasicRecord.node, hfocus]; rfl, rfl, rfl⟩
  | focus r =>
    rcases misfocus?_focus_eq_none_iff.mp h with hfocus | hfocus
    · exact ⟨_, by rw [node, FocusRecord.node, hfocus]; rfl, rfl, rfl⟩
    · exact ⟨_, by rw [node, FocusRecord.node, hfocus]; rfl, rfl, rfl⟩
  | _ => exact ⟨_, rfl, rfl, rfl⟩

/-- The fault of a record that comes after the start of a document and other records. -/
def fault? (start : Guid) (earlier : List Record) (r : Record) : Option GraphError :=
  match r.misfocus? with
  | some number => some (.invalidFocusChoice r.guid number)
  | none => if r.guid ∈ start :: earlier.map guid then some (.duplicateGuid r.guid) else none

theorem fault?_eq_some_iff {start : Guid} {earlier : List Record} {r : Record} {e : GraphError} :
    r.fault? start earlier = some e ↔
      (∃ number, r.misfocus? = some number ∧ e = .invalidFocusChoice r.guid number) ∨
        (r.misfocus? = none ∧ r.guid ∈ start :: earlier.map guid ∧ e = .duplicateGuid r.guid) := by
  rw [fault?]
  cases hfocus : r.misfocus? with
  | some number => simp [eq_comm]
  | none =>
    by_cases hused : r.guid ∈ start :: earlier.map guid
    · rw [if_pos hused]
      simp [hused, eq_comm]
    · rw [if_neg hused]
      simp [hused]

theorem fault?_eq_none_iff {start : Guid} {earlier : List Record} {r : Record} :
    r.fault? start earlier = none ↔ r.misfocus? = none ∧ r.guid ∉ start :: earlier.map guid := by
  rw [fault?]
  cases hfocus : r.misfocus? with
  | some number => simp
  | none =>
    by_cases hused : r.guid ∈ start :: earlier.map guid
    · rw [if_pos hused]
      simp [hused]
    · rw [if_neg hused]
      simp [hused]

end Record

/-- The records of a document in the order they are loaded. -/
def Document.records (d : Document) : List Record :=
  d.basicNodes.map .basic ++ d.choiceNodes.map .choice ++ d.conditionNodes.map .condition ++
    d.focusNodes.map .focus ++ d.eventNodes.map .event ++ d.exitNodes.map .exit

theorem Document.nodes_eq (d : Document) : d.nodes = d.records.map Record.node := by
  simp only [nodes, records, List.map_append, List.map_map]
  rfl

theorem Document.misfocus?_records_iff (d : Document) :
    (∀ r ∈ d.records, r.misfocus? = none) ↔
      (∀ r ∈ d.basicNodes, r.focusChoice = 0 ∨ r.focusChoice = 1 ∨ r.focusChoice = 2) ∧
        ∀ r ∈ d.focusNodes, r.focusChoice = 0 ∨ r.focusChoice = 1 := by
  simp only [records, List.forall_mem_append, List.forall_mem_map,
    Record.misfocus?_basic_eq_none_iff, Record.misfocus?_focus_eq_none_iff]
  simp [Record.misfocus?]

namespace Graph

/-- The graph under construction stands for the records gone through. -/
theorem failure?_insertNodes {g : Graph} {start : Guid} {earlier rs : List Record}
    (h : g.nodes.map Node.guid = start :: earlier.map Record.guid) :
    failure? (g.insertNodes (rs.map Record.node)) =
      firstFault? (Record.fault? start) earlier rs := by
  induction rs generalizing g earlier with
  | nil => rfl
  | cons r rs ih =>
    rw [List.map_cons]
    cases hfocus : r.misfocus? with
    | some number =>
      have hfault : r.fault? start earlier = some (.invalidFocusChoice r.guid number) :=
        Record.fault?_eq_some_iff.mpr (.inl ⟨number, hfocus, rfl⟩)
      rw [firstFault?_of_fault hfault, Record.node_of_misfocus hfocus]
      rfl
    | none =>
      obtain ⟨n, hn, hguid, hentry⟩ := Record.exists_node hfocus
      rw [hn, insertNodes]
      by_cases hused : r.guid ∈ start :: earlier.map Record.guid
      · have hfault : r.fault? start earlier = some (.duplicateGuid r.guid) :=
          Record.fault?_eq_some_iff.mpr (.inr ⟨hfocus, hused, rfl⟩)
        have hinsert : g.insertNode n = .error (.duplicateGuid r.guid) := by
          have hcontains : g.contains r.guid = true := contains_iff_mem.mpr (h ▸ hused)
          simp [insertNode, hentry, hguid, hcontains]
        rw [firstFault?_of_fault hfault, hinsert]
        rfl
      · have hfault : r.fault? start earlier = none :=
          Record.fault?_eq_none_iff.mpr ⟨hfocus, hused⟩
        have hfresh : n.guid ∉ g.nodes.map Node.guid := by rwa [h, hguid]
        rw [firstFault?_of_none hfault, insertNode_of_fresh hentry hfresh]
        refine ih ?_
        have hnodes : ({ g with body := g.body ++ [n] } : Graph).nodes = g.nodes ++ [n] := rfl
        rw [hnodes, List.map_append, h, List.map_append, List.cons_append, List.map_singleton,
          List.map_singleton, hguid]

theorem firstFault?_records_eq_none_iff {start : Guid} {rs : List Record} :
    firstFault? (Record.fault? start) [] rs = none ↔
      (start :: rs.map Record.guid).Nodup ∧ ∀ r ∈ rs, r.misfocus? = none := by
  induction rs using List.reverseRecOn with
  | nil => simp [firstFault?]
  | append_singleton rs r ih =>
    have hguids : (start :: (rs ++ [r]).map Record.guid).Nodup ↔
        (start :: rs.map Record.guid).Nodup ∧ r.guid ∉ start :: rs.map Record.guid := by
      rw [List.map_append, ← List.cons_append, List.map_singleton, ← List.concat_eq_append,
        List.nodup_concat]
      exact and_comm
    rw [firstFault?_concat_eq_none_iff, ih, Record.fault?_eq_none_iff, hguids,
      List.forall_mem_append, List.forall_mem_singleton, and_comm (a := r.misfocus? = none)]
    exact and_and_and_comm

theorem failure?_ofDocument (id : GraphId) {d : Document} (h : d.entryGuid.text ≠ "") :
    failure? (ofDocument id d) = firstFault? (Record.fault? d.entryGuid) [] d.records := by
  have hinsert :
      failure? (((new id d.entryGuid).withEntryPosition d.entryPosition).insertNodes
        (d.records.map Record.node)) = firstFault? (Record.fault? d.entryGuid) [] d.records :=
    failure?_insertNodes rfl
  rw [← hinsert, ofDocument, if_neg h, Document.nodes_eq]
  cases insertNodes _ _ <;> rfl

/-- **Loading is exact.** A document loads just if its start is named, no two of the start and the
records share a guid, and every focus number stands for something; its links and properties do not
matter. Otherwise an unnamed start is reported before anything else, and then the first record at
fault: for its focus number if that stands for nothing, and else for its guid, which is that of the
start or of a record before it. A second start is never reported. -/
theorem ofDocument_exact (id : GraphId) (d : Document) :
    ((∃ g, ofDocument id d = .ok g) ↔
      d.entryGuid.text ≠ "" ∧ (d.entryGuid :: d.records.map Record.guid).Nodup ∧
        (∀ r ∈ d.basicNodes, r.focusChoice = 0 ∨ r.focusChoice = 1 ∨ r.focusChoice = 2) ∧
        ∀ r ∈ d.focusNodes, r.focusChoice = 0 ∨ r.focusChoice = 1) ∧
    (∀ e, ofDocument id d = .error e ↔
      (d.entryGuid.text = "" ∧ e = .missingEntry) ∨
      (d.entryGuid.text ≠ "" ∧ ∃ before r after, d.records = before ++ r :: after ∧
        (d.entryGuid :: before.map Record.guid).Nodup ∧ (∀ k ∈ before, k.misfocus? = none) ∧
        ((∃ number, r.misfocus? = some number ∧ e = .invalidFocusChoice r.guid number) ∨
          (r.misfocus? = none ∧ r.guid ∈ d.entryGuid :: before.map Record.guid ∧
            e = .duplicateGuid r.guid)))) ∧
    ∀ u, ofDocument id d ≠ .error (.multipleEntries u) := by
  by_cases hname : d.entryGuid.text = ""
  · have hmissing : ofDocument id d = .error .missingEntry := if_pos hname
    simp [hmissing, hname, eq_comm]
  have hfirst := failure?_ofDocument id hname
  have herror (e : GraphError) : ofDocument id d = .error e ↔
      ∃ before r after, d.records = before ++ r :: after ∧
        firstFault? (Record.fault? d.entryGuid) [] before = none ∧
        r.fault? d.entryGuid before = some e := by
    rw [← failure?_eq_some_iff, hfirst, firstFault?_eq_some_iff]
    rfl
  refine ⟨?_, fun e => ?_, fun u hu => ?_⟩
  · rw [← failure?_eq_none_iff, hfirst, firstFault?_records_eq_none_iff, d.misfocus?_records_iff]
    exact (and_iff_right hname).symm
  · rw [herror]
    simp [firstFault?_records_eq_none_iff, Record.fault?_eq_some_iff, hname, and_assoc]
  · obtain ⟨before, r, after, -, -, hfault⟩ := (herror _).mp hu
    obtain ⟨number, -, he⟩ | ⟨-, -, he⟩ := Record.fault?_eq_some_iff.mp hfault
    · cases he
    · cases he

end Graph

end Dialogue
