import Dialogue.Proofs.Graph.Building
import Dialogue.Proofs.Graph.Grouping

/-!
# Saving and loading

A document that loads is the document of the graph it loads as (`ofGraph_ofDocument`), and a
well-formed graph loads from its document as the same graph regrouped (`ofDocument_ofGraph`): the
nodes after the start by kind, the properties by type, and the ends without their texts. The kinds
of records are instances of one law (`IsRecord`), and both directions go through the records of each
kind in turn.
-/

namespace Dialogue

/-! ### Focus numbers -/

namespace FocusTarget

theorem lineChoice_of_ofLineChoice? {choice : Int32} {focus : Option FocusTarget}
    (h : ofLineChoice? choice = some focus) : lineChoice focus = choice := by
  unfold ofLineChoice? at h
  split at h
  · rename_i hchoice
    cases h
    exact hchoice.symm
  · split at h
    · rename_i hchoice
      cases h
      exact hchoice.symm
    · split at h
      · rename_i hchoice
        cases h
        exact hchoice.symm
      · cases h

theorem choice_of_ofChoice? {choice : Int32} {target : FocusTarget}
    (h : ofChoice? choice = some target) : target.choice = choice := by
  unfold ofChoice? at h
  split at h
  · rename_i hchoice
    cases h
    exact hchoice.symm
  · split at h
    · rename_i hchoice
      cases h
      exact hchoice.symm
    · cases h

end FocusTarget

/-! ### Records of one kind -/

/-- A node as it comes back from its record: an end has lost its text. -/
def Node.saved (n : Node) : Node :=
  match n.kind with
  | .exit => { n with text := "" }
  | _ => n

theorem Node.guid_saved (n : Node) : n.saved.guid = n.guid := by
  unfold Node.saved
  split <;> rfl

theorem Node.kind_saved (n : Node) : n.saved.kind = n.kind := by
  unfold Node.saved
  split <;> rfl

theorem Node.name_of_isEntry {n : Node} (h : n.isEntry = false) :
    n.kind.name ∈ NodeKind.saveOrder := by
  obtain ⟨guid, position, text, kind⟩ := n
  cases kind with
  | entry => simp [Node.isEntry] at h
  | _ => simp [NodeKind.name, NodeKind.saveOrder]

/-- The records of a type stand for the elements of one key: a record is read back from what is made
of it, and an element is made again from its record, up to what the record does not hold. -/
structure IsRecord {σ α κ : Type} [DecidableEq κ] (key : σ → κ) (saved : σ → σ) (k : κ)
    (make : α → Except GraphError σ) (record? : σ → Option α) : Prop where
  key_make : ∀ {r x}, make r = .ok x → key x = k
  record?_make : ∀ {r x}, make r = .ok x → record? x = some r
  make_record? : ∀ x, (record? x).map make = if key x = k then some (.ok (saved x)) else none

/-- The records of a type stand for the nodes of a kind. -/
abbrev IsNodeRecord {α : Type} (kind : String) (node : α → Except GraphError Node)
    (record? : Node → Option α) : Prop :=
  IsRecord (fun n : Node => n.kind.name) Node.saved kind node record?

/-- The records of a type stand for the properties of a kind. -/
abbrev IsPropertyRecord {α : Type} (kind : PropertyKind) (ofValue : α → PropertyValue)
    (toValue? : PropertyValue → Option α) : Prop :=
  IsRecord Property.kind id kind (fun r => .ok (PropertyRecord.property ofValue r))
    (Property.record? toValue?)

namespace IsRecord

theorem basic : IsNodeRecord "basic" BasicRecord.node Node.basicRecord? where
  key_make {r n} h := by
    unfold BasicRecord.node at h
    split at h
    · cases h
      rfl
    · cases h
  record?_make {r n} h := by
    unfold BasicRecord.node at h
    split at h
    · rename_i focus hfocus
      cases h
      simp only [Node.basicRecord?, FocusTarget.lineChoice_of_ofLineChoice? hfocus]
    · cases h
  make_record? n := by
    obtain ⟨guid, position, text, kind⟩ := n
    cases kind with
    | basic focus => rcases focus with _ | _ | _ <;> rfl
    | _ => rfl

theorem choice : IsNodeRecord "choice" ChoiceRecord.node Node.choiceRecord? where
  key_make h := by cases h; rfl
  record?_make h := by cases h; rfl
  make_record? n := by obtain ⟨guid, position, text, kind⟩ := n; cases kind <;> rfl

theorem condition : IsNodeRecord "condition" ConditionRecord.node Node.conditionRecord? where
  key_make h := by cases h; rfl
  record?_make h := by cases h; rfl
  make_record? n := by obtain ⟨guid, position, text, kind⟩ := n; cases kind <;> rfl

theorem focus : IsNodeRecord "focus" FocusRecord.node Node.focusRecord? where
  key_make {r n} h := by
    unfold FocusRecord.node at h
    split at h
    · cases h
      rfl
    · cases h
  record?_make {r n} h := by
    unfold FocusRecord.node at h
    split at h
    · rename_i target htarget
      cases h
      simp only [Node.focusRecord?, FocusTarget.choice_of_ofChoice? htarget]
    · cases h
  make_record? n := by
    obtain ⟨guid, position, text, kind⟩ := n
    cases kind with
    | focus target => cases target <;> rfl
    | _ => rfl

theorem event : IsNodeRecord "event" EventRecord.node Node.eventRecord? where
  key_make h := by cases h; rfl
  record?_make h := by cases h; rfl
  make_record? n := by obtain ⟨guid, position, text, kind⟩ := n; cases kind <;> rfl

theorem exit : IsNodeRecord "exit" ExitRecord.node Node.exitRecord? where
  key_make h := by cases h; rfl
  record?_make h := by cases h; rfl
  make_record? n := by obtain ⟨guid, position, text, kind⟩ := n; cases kind <;> rfl

theorem int : IsPropertyRecord .int PropertyValue.int PropertyValue.int? where
  key_make h := by cases h; rfl
  record?_make h := by cases h; rfl
  make_record? p := by obtain ⟨guid, name, value⟩ := p; cases value <;> rfl

theorem string : IsPropertyRecord .string PropertyValue.string PropertyValue.string? where
  key_make h := by cases h; rfl
  record?_make h := by cases h; rfl
  make_record? p := by obtain ⟨guid, name, value⟩ := p; cases value <;> rfl

theorem bool : IsPropertyRecord .bool PropertyValue.bool PropertyValue.bool? where
  key_make h := by cases h; rfl
  record?_make h := by cases h; rfl
  make_record? p := by obtain ⟨guid, name, value⟩ := p; cases value <;> rfl

/-- The records that are read from a list, faults left out. -/
def among {σ α : Type} (record? : σ → Option α) (xs : List (Except GraphError σ)) : List α :=
  xs.filterMap fun x => x.toOption.bind record?

section

variable {σ α β κ : Type} [DecidableEq κ] {key : σ → κ} {saved : σ → σ} {k k' : κ}
  {make : α → Except GraphError σ} {record? : σ → Option α}
  {make' : β → Except GraphError σ} {record?' : σ → Option β}

theorem among_append (xs ys : List (Except GraphError σ)) :
    among record? (xs ++ ys) = among record? xs ++ among record? ys :=
  List.filterMap_append

theorem among_ok (xs : List σ) : among record? (xs.map .ok) = xs.filterMap record? := by
  simp only [among, List.filterMap_map]
  rfl

theorem among_own (h : IsRecord key saved k make record?) {rs : List α} :
    (∀ x ∈ rs.map make, ∃ y, x = .ok y) → among record? (rs.map make) = rs := by
  induction rs with
  | nil =>
    intro _
    rfl
  | cons r rs ih =>
    intro hok
    obtain ⟨y, hy⟩ := hok (make r) List.mem_cons_self
    have hrest := ih fun x hx => hok x (List.mem_cons_of_mem _ hx)
    have hr : (make r).toOption.bind record? = some r := by
      rw [hy]
      exact h.record?_make hy
    rw [among] at hrest ⊢
    simp only [List.map_cons, List.filterMap_cons, hr, hrest]

theorem among_other (h : IsRecord key saved k make record?)
    (h' : IsRecord key saved k' make' record?') (hne : k' ≠ k) (rs : List β) :
    among record? (rs.map make') = [] := by
  unfold among
  rw [List.filterMap_eq_nil_iff]
  intro x hx
  obtain ⟨r, -, rfl⟩ := List.mem_map.mp hx
  cases hr : make' r with
  | error e => rfl
  | ok y =>
    have hkey : key y ≠ k := h'.key_make hr ▸ hne
    have hnone := h.make_record? y
    rw [if_neg hkey, Option.map_eq_none_iff] at hnone
    exact hnone

theorem make_filterMap (h : IsRecord key saved k make record?) (xs : List σ) :
    (xs.filterMap record?).map make =
      (xs.filter fun x => key x = k).map fun x => .ok (saved x) := by
  rw [List.map_filterMap, ← List.filterMap_eq_map, List.filterMap_filter]
  refine List.filterMap_congr fun x _ => ?_
  rw [h.make_record? x]
  by_cases hx : key x = k <;> simp [hx]

theorem property_filterMap {kind : PropertyKind} {ofValue : α → PropertyValue}
    {toValue? : PropertyValue → Option α} (h : IsPropertyRecord kind ofValue toValue?)
    (ps : List Property) :
    (ps.filterMap (Property.record? toValue?)).map (PropertyRecord.property ofValue) =
      ps.filter fun p => p.kind = kind := by
  have hmake := congrArg (List.filterMap Except.toOption) (h.make_filterMap ps)
  simpa [List.filterMap_map, Function.comp_def, Except.toOption] using hmake

end

end IsRecord

/-! ### From a document to a graph and back -/

namespace Graph

theorem insertNodes_ok {ns : List (Except GraphError Node)} {g g' : Graph} :
    g.insertNodes ns = .ok g' → ∃ ms, ns = ms.map .ok ∧ (∀ m ∈ ms, m.isEntry = false) ∧
      g' = { g with body := g.body ++ ms } := by
  induction ns generalizing g with
  | nil =>
    intro h
    cases h
    exact ⟨[], rfl, fun m hm => absurd hm List.not_mem_nil, by rw [List.append_nil]⟩
  | cons x ns ih =>
    intro h
    cases x with
    | error e => cases h
    | ok n =>
      unfold insertNodes at h
      split at h
      · cases h
      · rename_i g₁ hn
        obtain ⟨hentry, -, rfl⟩ := insertNode_ok hn
        obtain ⟨ms, rfl, hms, rfl⟩ := ih h
        refine ⟨n :: ms, rfl, fun m hm => ?_, ?_⟩
        · rcases List.mem_cons.mp hm with rfl | hm
          · exact hentry
          · exact hms m hm
        · simp only [List.append_assoc, List.singleton_append]

theorem WellFormed.insertNodes {ns : List (Except GraphError Node)} {g g' : Graph}
    (h : g.WellFormed) : g.insertNodes ns = .ok g' → g'.WellFormed := by
  induction ns generalizing g with
  | nil =>
    intro hok
    cases hok
    exact h
  | cons x ns ih =>
    intro hok
    cases x with
    | error e => cases hok
    | ok n =>
      unfold Graph.insertNodes at hok
      split at hok
      · cases hok
      · rename_i g₁ hn
        exact ih (h.insertNode hn) hok

theorem insertNodes_of_distinct {ms : List Node} {g : Graph} :
    (∀ m ∈ ms, m.isEntry = false) → ((g.nodes ++ ms).map Node.guid).Nodup →
      g.insertNodes (ms.map .ok) = .ok { g with body := g.body ++ ms } := by
  induction ms generalizing g with
  | nil =>
    intro _ _
    rw [List.append_nil]
    rfl
  | cons n ms ih =>
    intro hentry hdistinct
    have hfresh : n.guid ∉ g.nodes.map Node.guid := by
      rw [List.map_append, List.nodup_append] at hdistinct
      intro hmem
      exact hdistinct.2.2 _ hmem _ List.mem_cons_self rfl
    have hn := insertNode_of_fresh (hentry n List.mem_cons_self) hfresh
    have hrest : (({ g with body := g.body ++ [n] } : Graph).nodes ++ ms).map Node.guid =
        (g.nodes ++ n :: ms).map Node.guid := by
      simp [nodes, entry]
    have hall := ih (g := { g with body := g.body ++ [n] })
      (fun m hm => hentry m (List.mem_cons_of_mem _ hm)) (hrest ▸ hdistinct)
    rw [List.map_cons, insertNodes, hn]
    exact hall.trans (by simp only [List.append_assoc, List.singleton_append])

theorem ofDocument_ok {id : GraphId} {d : Document} {g : Graph} (h : ofDocument id d = .ok g) :
    d.entryGuid.text ≠ "" ∧ d.nodes = g.body.map .ok ∧
      g = ⟨id, d.entryGuid, d.entryPosition, g.body, d.links, d.properties⟩ := by
  unfold ofDocument at h
  split at h
  · cases h
  · rename_i hguid
    split at h
    · cases h
    · rename_i g₁ hinsert
      obtain ⟨ms, hnodes, -, rfl⟩ := insertNodes_ok hinsert
      cases h
      exact ⟨hguid, hnodes, rfl⟩

theorem wellFormed_ofDocument {id : GraphId} {d : Document} {g : Graph}
    (h : ofDocument id d = .ok g) : g.WellFormed := by
  unfold ofDocument at h
  split at h
  · cases h
  · split at h
    · cases h
    · rename_i g₁ hinsert
      cases h
      have hstart : ((new id d.entryGuid).withEntryPosition d.entryPosition).WellFormed :=
        (wellFormed_new id d.entryGuid).of_body rfl rfl
      exact (hstart.insertNodes hinsert).of_body rfl rfl

end Graph

namespace Document

open IsRecord in
theorem among_nodes {d : Document} (h : ∀ x ∈ d.nodes, ∃ n, x = .ok n) :
    among Node.basicRecord? d.nodes = d.basicNodes ∧
      among Node.choiceRecord? d.nodes = d.choiceNodes ∧
      among Node.conditionRecord? d.nodes = d.conditionNodes ∧
      among Node.focusRecord? d.nodes = d.focusNodes ∧
      among Node.eventRecord? d.nodes = d.eventNodes ∧
      among Node.exitRecord? d.nodes = d.exitNodes := by
  simp only [nodes, List.mem_append, or_imp, forall_and] at h
  obtain ⟨⟨⟨⟨⟨hbasic, hchoice⟩, hcondition⟩, hfocus⟩, hevent⟩, hexit⟩ := h
  simp only [nodes, among_append]
  refine ⟨?_, ?_, ?_, ?_, ?_, ?_⟩
  · simp [basic.among_own hbasic, basic.among_other choice, basic.among_other condition,
      basic.among_other focus, basic.among_other event, basic.among_other exit]
  · simp [choice.among_own hchoice, choice.among_other basic, choice.among_other condition,
      choice.among_other focus, choice.among_other event, choice.among_other exit]
  · simp [condition.among_own hcondition, condition.among_other basic,
      condition.among_other choice, condition.among_other focus, condition.among_other event,
      condition.among_other exit]
  · simp [focus.among_own hfocus, focus.among_other basic, focus.among_other choice,
      focus.among_other condition, focus.among_other event, focus.among_other exit]
  · simp [event.among_own hevent, event.among_other basic, event.among_other choice,
      event.among_other condition, event.among_other focus, event.among_other exit]
  · simp [exit.among_own hexit, exit.among_other basic, exit.among_other choice,
      exit.among_other condition, exit.among_other focus, exit.among_other event]

open IsRecord in
theorem filterMap_properties (d : Document) :
    d.properties.filterMap (Property.record? PropertyValue.int?) = d.intProperties ∧
      d.properties.filterMap (Property.record? PropertyValue.string?) = d.stringProperties ∧
      d.properties.filterMap (Property.record? PropertyValue.bool?) = d.boolProperties := by
  have hok : ∀ {α : Type} (ofValue : α → PropertyValue) (rs : List (PropertyRecord α)),
      ∀ x ∈ rs.map fun r => (.ok (r.property ofValue) : Except GraphError Property),
        ∃ p, x = .ok p := by
    intro α ofValue rs x hx
    obtain ⟨r, -, rfl⟩ := List.mem_map.mp hx
    exact ⟨_, rfl⟩
  have hmake : d.properties.map .ok =
      (d.intProperties.map fun r => (.ok (r.property .int) : Except GraphError Property)) ++
        (d.stringProperties.map fun r => .ok (r.property .string)) ++
        (d.boolProperties.map fun r => .ok (r.property .bool)) := by
    simp [properties, Function.comp_def]
  rw [← among_ok, ← among_ok, ← among_ok, hmake]
  simp only [among_append]
  refine ⟨?_, ?_, ?_⟩
  · simp [int.among_own (hok _ _), int.among_other string, int.among_other bool]
  · simp [string.among_own (hok _ _), string.among_other int, string.among_other bool]
  · simp [bool.among_own (hok _ _), bool.among_other int, bool.among_other string]

/-- **A document that loads is the document of its graph.** -/
theorem ofGraph_ofDocument {id : GraphId} {d : Document} {g : Graph}
    (h : Graph.ofDocument id d = .ok g) : ofGraph g = d := by
  obtain ⟨-, hnodes, hg⟩ := Graph.ofDocument_ok h
  have hok : ∀ x ∈ d.nodes, ∃ n, x = .ok n := by
    intro x hx
    rw [hnodes] at hx
    obtain ⟨n, -, rfl⟩ := List.mem_map.mp hx
    exact ⟨n, rfl⟩
  have hread : ∀ {α : Type} (record? : Node → Option α), record? g.entry = none →
      g.nodes.filterMap record? = IsRecord.among record? d.nodes := by
    intro α record? hentry
    rw [hnodes, IsRecord.among_ok, Graph.nodes, List.filterMap_cons_none hentry]
  obtain ⟨hbasic, hchoice, hcondition, hfocus, hevent, hexit⟩ := among_nodes hok
  obtain ⟨hint, hstring, hbool⟩ := filterMap_properties d
  have hguid : g.entryGuid = d.entryGuid := by rw [hg]
  have hposition : g.entryPosition = d.entryPosition := by rw [hg]
  have hlinks : g.links = d.links := by rw [hg]
  have hproperties : g.properties = d.properties := by rw [hg]
  rw [ofGraph, hread _ rfl, hread _ rfl, hread _ rfl, hread _ rfl, hread _ rfl, hread _ rfl, hbasic,
    hchoice, hcondition, hfocus, hevent, hexit, hproperties, hint, hstring, hbool, hguid, hposition,
    hlinks]

/-! ### From a graph to a document and back -/

theorem nodes_ofGraph (g : Graph) : (ofGraph g).nodes =
    ((grouped (fun n : Node => n.kind.name) NodeKind.saveOrder g.body).map Node.saved).map .ok := by
  have hgroup : ∀ kind ≠ "entry", (g.nodes.filter fun n => n.kind.name = kind) =
      g.body.filter fun n => n.kind.name = kind := by
    intro kind hkind
    have hentry : ¬ g.entry.kind.name = kind := Ne.symm hkind
    simp only [Graph.nodes, List.filter_cons, hentry, decide_false, Bool.false_eq_true, if_false]
  simp only [nodes, ofGraph, IsRecord.basic.make_filterMap, IsRecord.choice.make_filterMap,
    IsRecord.condition.make_filterMap, IsRecord.focus.make_filterMap,
    IsRecord.event.make_filterMap, IsRecord.exit.make_filterMap]
  simp [hgroup, grouped, NodeKind.saveOrder, Function.comp_def]

theorem properties_ofGraph (g : Graph) :
    (ofGraph g).properties = grouped Property.kind PropertyKind.saveOrder g.properties := by
  simp only [properties, ofGraph, IsRecord.int.property_filterMap,
    IsRecord.string.property_filterMap, IsRecord.bool.property_filterMap]
  simp [grouped, PropertyKind.saveOrder]

end Document

namespace Graph

/-- A graph as it comes back from its document, under an id. -/
def regrouped (g : Graph) (id : GraphId) : Graph where
  id := id
  entryGuid := g.entryGuid
  entryPosition := g.entryPosition
  body := (grouped (fun n : Node => n.kind.name) NodeKind.saveOrder g.body).map Node.saved
  links := g.links
  properties := grouped Property.kind PropertyKind.saveOrder g.properties

section

variable {g : Graph} {id : GraphId}

theorem body_regrouped_perm (h : g.WellFormed) (id : GraphId) :
    (g.regrouped id).body.Perm (g.body.map Node.saved) := by
  have hcovered : ∀ n ∈ g.body, n.kind.name ∈ NodeKind.saveOrder := fun n hn =>
    Node.name_of_isEntry (h.oneEntry n hn)
  exact (grouped_perm (by decide) hcovered).map Node.saved

theorem guids_regrouped_perm (h : g.WellFormed) (id : GraphId) :
    ((g.regrouped id).nodes.map Node.guid).Perm (g.nodes.map Node.guid) := by
  have hbody := (body_regrouped_perm h id).map Node.guid
  have hsame : (g.body.map Node.saved).map Node.guid = g.body.map Node.guid := by
    simp [Node.guid_saved]
  rw [hsame] at hbody
  exact hbody.cons g.entryGuid

theorem WellFormed.regrouped (h : g.WellFormed) (id : GraphId) : (g.regrouped id).WellFormed := by
  refine ⟨(guids_regrouped_perm h id).nodup_iff.mpr h.distinct, fun n hn => ?_⟩
  obtain ⟨m, hm, rfl⟩ := List.mem_map.mp ((body_regrouped_perm h id).mem_iff.mp hn)
  have hentry := h.oneEntry m hm
  simpa [Node.isEntry, Node.kind_saved] using hentry

theorem node?_regrouped (h : g.WellFormed) (u : Guid) :
    (g.regrouped id).node? u = (g.node? u).map Node.saved := by
  have hmem : ∀ n, n ∈ (g.regrouped id).nodes ↔ n ∈ g.nodes.map Node.saved := by
    intro n
    have hbody := (body_regrouped_perm h id).mem_iff (a := n)
    simp only [nodes, List.map_cons, List.mem_cons, hbody]
    rfl
  refine Option.ext fun n => ?_
  rw [(h.regrouped id).node?_eq_some_iff, hmem, Option.map_eq_some_iff, List.mem_map]
  constructor
  · rintro ⟨⟨m, hm, rfl⟩, hguid⟩
    exact ⟨m, h.node?_eq_some_iff.mpr ⟨hm, m.guid_saved.symm.trans hguid⟩, rfl⟩
  · rintro ⟨m, hm, rfl⟩
    obtain ⟨hm, hguid⟩ := h.node?_eq_some_iff.mp hm
    exact ⟨⟨m, hm, rfl⟩, m.guid_saved.trans hguid⟩

/-- **A graph loads from its document, regrouped.** -/
theorem ofDocument_ofGraph (h : g.WellFormed) (hguid : g.entryGuid.text ≠ "") (id : GraphId) :
    ofDocument id (Document.ofGraph g) = .ok (g.regrouped id) := by
  have hwell := h.regrouped id
  have hinsert : ((new id g.entryGuid).withEntryPosition g.entryPosition).insertNodes
      (Document.ofGraph g).nodes =
        .ok { (new id g.entryGuid).withEntryPosition g.entryPosition with
          body := (g.regrouped id).body } := by
    rw [Document.nodes_ofGraph]
    exact insertNodes_of_distinct hwell.oneEntry hwell.distinct
  have hentry : ¬ (Document.ofGraph g).entryGuid.text = "" := hguid
  unfold ofDocument
  rw [if_neg hentry]
  have hstart : ((new id (Document.ofGraph g).entryGuid).withEntryPosition
      (Document.ofGraph g).entryPosition).insertNodes (Document.ofGraph g).nodes = _ := hinsert
  rw [hstart, Document.properties_ofGraph]
  rfl

theorem eq_regrouped_of_load {g' : Graph} (h : g.WellFormed)
    (hload : ofDocument id (Document.ofGraph g) = .ok g') :
    g.entryGuid.text ≠ "" ∧ g' = g.regrouped id := by
  have hguid : g.entryGuid.text ≠ "" := (ofDocument_ok hload).1
  exact ⟨hguid, Except.ok.inj (hload.symm.trans (ofDocument_ofGraph h hguid id))⟩

end

/-! ### Round trips -/

/-- **Documents and graphs come back.** A document that loads is the document of its graph. A graph
that is built loads from its document: with the same start, place and links, the same node for each
guid up to the texts of ends, and with its other nodes grouped by kind and its properties by type,
each group in the old order. -/
theorem round_trip :
    (∀ id d g, ofDocument id d = .ok g → Document.ofGraph g = d) ∧
      ∀ g : Graph, g.Built → ∀ id, ∃ g', ofDocument id (Document.ofGraph g) = .ok g' ∧
        g'.entryGuid = g.entryGuid ∧ g'.entryPosition = g.entryPosition ∧ g'.links = g.links ∧
        (∀ u, g'.node? u = (g.node? u).map Node.saved) ∧
        g'.nodes = g.entry ::
          (grouped (fun n : Node => n.kind.name) NodeKind.saveOrder g.body).map Node.saved ∧
        g'.properties = grouped Property.kind PropertyKind.saveOrder g.properties :=
  ⟨fun _ _ _ h => Document.ofGraph_ofDocument h, fun _ h id =>
    ⟨_, ofDocument_ofGraph h.wellFormed h.named id, rfl, rfl, rfl, node?_regrouped h.wellFormed,
      rfl, rfl⟩⟩

/-- A graph whose end has a text, and whose integer is declared last and as a text at first. -/
def lodge : Graph :=
  (new ⟨3⟩ ⟨"start"⟩).edited
    [.node (.ofKind ⟨"end"⟩ "Farewell." .exit), .property ⟨⟨"p1"⟩, "keeper", .string "Ava"⟩,
      .node (.ofKind ⟨"hall"⟩ "Come in." (.basic (some .actor))), .link ⟨⟨"start"⟩, ⟨"hall"⟩, 0⟩,
      .property ⟨⟨"p2"⟩, "beds", .string "none"⟩, .value 1 (.int 4)]

/-- The lodge loses a text and has its integer first when it comes back, and is saved as before. -/
theorem round_trip_lodge : lodge.Built ∧ ∃ g',
    ofDocument ⟨4⟩ (Document.ofGraph lodge) = .ok g' ∧
      Document.ofGraph g' = Document.ofGraph lodge ∧
      g'.node? ⟨"end"⟩ = some (.ofKind ⟨"end"⟩ "" .exit) ∧
      g'.properties = [⟨⟨"p2"⟩, "beds", .int 4⟩, ⟨⟨"p1"⟩, "keeper", .string "Ava"⟩] := by
  have hbuilt : lodge.Built := ⟨_, _, _, by decide, rfl⟩
  obtain ⟨g', hload, -, -, -, hnode, -, hproperties⟩ := round_trip.2 lodge hbuilt ⟨4⟩
  refine ⟨hbuilt, g', hload, round_trip.1 _ _ _ hload, ?_, ?_⟩
  · rw [hnode]
    rfl
  · rw [hproperties]
    rfl

end Graph

end Dialogue
