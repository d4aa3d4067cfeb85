import Dialogue.Proofs.Graph.RoundTrip
import Dialogue.Proofs.Interchange.Document

/-!
# Graphs that are saved and loaded

The document of a graph is read back from its text just when all nodes stand at finite positions
(`Document.kept_ofGraph`). So a graph that is built at finite positions is saved as a text that carries
all of it (`Graph.saved_text_carries_document`), and a graph that was loaded loads again from the text
that it is saved as, unless a coordinate was too great for single precision and is written as null
(`Graph.loaded_graph_loads_again`).
-/

namespace Dialogue

open Json

/-! ### Finite positions -/

def Position.isFinite (p : Position) : Bool := p.x.isFinite && p.y.isFinite

/-- Whether all nodes stand at finite positions. -/
def Graph.isPlaced (g : Graph) : Bool := g.nodes.all fun n => n.position.isFinite

/-! ### What a document keeps -/

namespace Document

theorem kept_records {α : Type} [Codec α] [Codec.Lawful α] (record? : Node → Option α)
    (hplace : ∀ n r, record? n = some r → kept r = kept n.position) (ns : List Node) :
    kept (ns.filterMap record?) = true ↔
      ∀ n ∈ ns, (record? n).isSome → kept n.position = true := by
  show (ns.filterMap record?).all kept = true ↔ _
  simp only [List.all_eq_true, List.mem_filterMap]
  constructor
  · intro h n hn hsome
    obtain ⟨r, hr⟩ := Option.isSome_iff_exists.mp hsome
    rw [← hplace n r hr]
    exact h r ⟨n, hn, hr⟩
  · rintro h r ⟨n, hn, hr⟩
    rw [hplace n r hr]
    exact h n hn (by rw [hr]; rfl)

/-- **The document of a graph is kept just when all its nodes stand at finite positions.** -/
theorem kept_ofGraph {g : Graph} (h : g.WellFormed) : kept (ofGraph g) = g.isPlaced := by
  have hbasic := kept_records Node.basicRecord? (by
    intro n r hr
    unfold Node.basicRecord? at hr
    split at hr <;> cases hr
    exact Bool.and_true _) g.nodes
  have hchoice := kept_records Node.choiceRecord? (by
    intro n r hr
    unfold Node.choiceRecord? at hr
    split at hr <;> cases hr
    exact Bool.and_true _) g.nodes
  have hcondition := kept_records Node.conditionRecord? (by
    intro n r hr
    unfold Node.conditionRecord? at hr
    split at hr <;> cases hr
    exact Bool.and_true _) g.nodes
  have hfocus := kept_records Node.focusRecord? (by
    intro n r hr
    unfold Node.focusRecord? at hr
    split at hr <;> cases hr
    exact Bool.and_true _) g.nodes
  have hevent := kept_records Node.eventRecord? (by
    intro n r hr
    unfold Node.eventRecord? at hr
    split at hr <;> cases hr
    exact Bool.and_true _) g.nodes
  have hexit := kept_records Node.exitRecord? (by
    intro n r hr
    unfold Node.exitRecord? at hr
    split at hr <;> cases hr
    exact Bool.and_true _) g.nodes
  rw [Bool.eq_iff_iff, kept_iff, Graph.isPlaced, List.all_eq_true]
  constructor
  · rintro ⟨hentry, hbasics, hchoices, hconditions, hfocuses, hevents, hexits⟩ n hn
    rcases List.mem_cons.mp hn with rfl | hbody
    · exact hentry
    · have hkind := h.oneEntry n hbody
      cases hk : n.kind with
      | entry => simp [Node.isEntry, hk] at hkind
      | basic => exact hbasic.mp hbasics n hn (by simp [Node.basicRecord?, hk])
      | choice => exact hchoice.mp hchoices n hn (by simp [Node.choiceRecord?, hk])
      | condition => exact hcondition.mp hconditions n hn (by simp [Node.conditionRecord?, hk])
      | focus => exact hfocus.mp hfocuses n hn (by simp [Node.focusRecord?, hk])
      | event => exact hevent.mp hevents n hn (by simp [Node.eventRecord?, hk])
      | exit => exact hexit.mp hexits n hn (by simp [Node.exitRecord?, hk])
  · intro hall
    exact ⟨hall g.entry List.mem_cons_self, hbasic.mpr fun n hn _ => hall n hn,
      hchoice.mpr fun n hn _ => hall n hn, hcondition.mpr fun n hn _ => hall n hn,
      hfocus.mpr fun n hn _ => hall n hn, hevent.mpr fun n hn _ => hall n hn,
      hexit.mpr fun n hn _ => hall n hn⟩

end Document

/-! ### Saving and loading -/

namespace Graph

theorem ofText?_prettyText {g : Graph} (hg : g.WellFormed) :
    Codec.ofText? g.prettyText = if g.isPlaced then some (Document.ofGraph g) else none := by
  rw [prettyText, Codec.ofText?_pretty, Document.kept_ofGraph hg]

theorem ofText?_compactText {g : Graph} (hg : g.WellFormed) :
    Codec.ofText? g.compactText = if g.isPlaced then some (Document.ofGraph g) else none := by
  rw [compactText, Codec.ofText?_compact, Document.kept_ofGraph hg]

/-- **The saved text carries the whole document.** The indented and the compact text of a graph that is
built, whatever texts, values and ports it has, are read back as its document. When its start has a
name, both texts load as one graph, under any id, and that graph is saved as the same texts again. -/
theorem saved_text_carries_document (id : GraphId) (entryGuid : Guid) (edits : List Edit)
    (hplaced : ((new id entryGuid).edited edits).isPlaced = true) :
    let g := (new id entryGuid).edited edits
    Codec.ofText? g.prettyText = some (Document.ofGraph g) ∧
      Codec.ofText? g.compactText = some (Document.ofGraph g) ∧
      (entryGuid.text ≠ "" → ∃ g' : Graph, ∀ id' : GraphId,
        ofText id' g.prettyText = .ok { g' with id := id' } ∧
        ofText id' g.compactText = .ok { g' with id := id' } ∧
        ({ g' with id := id' } : Graph).prettyText = g.prettyText ∧
        ({ g' with id := id' } : Graph).compactText = g.compactText) := by
  intro g
  have hwell : g.WellFormed := wellFormed_edited (wellFormed_new id entryGuid) edits
  have hpretty := ofText?_prettyText hwell
  have hcompact := ofText?_compactText hwell
  rw [if_pos hplaced] at hpretty hcompact
  refine ⟨hpretty, hcompact, fun hguid => ⟨g.regrouped id, fun id' => ?_⟩⟩
  have hnamed : g.entryGuid.text ≠ "" := by
    rw [entryGuid_edited]
    exact hguid
  have hloads : ofDocument id' (Document.ofGraph g) = .ok { g.regrouped id with id := id' } :=
    ofDocument_ofGraph hwell hnamed id'
  have hdocument : Document.ofGraph { g.regrouped id with id := id' } = Document.ofGraph g :=
    Document.ofGraph_ofDocument hloads
  refine ⟨?_, ?_, ?_, ?_⟩
  · simp only [ofText, hpretty, hloads]
  · simp only [ofText, hcompact, hloads]
  · rw [prettyText, hdocument]
    rfl
  · rw [compactText, hdocument]
    rfl

/-- A graph with marks, escapes, controls and letters of other scripts in its texts. -/
def archive : Graph :=
  (new ⟨5⟩ ⟨"start \"a\""⟩).edited
    [.node ⟨⟨"desk"⟩, ⟨⟨0x3FC00000⟩, ⟨0xBDCCCCCD⟩⟩, "\"Papers\\rolls?\"\n\t\x01 Привет, 書庫 😀",
        .choice (.ofList [(4294967295, "\\"), (0, "\x7f\u2028")])⟩,
      .link ⟨⟨"start \"a\""⟩, ⟨"desk"⟩, 0⟩, .property ⟨⟨""⟩, "\x00", .int (-2147483648)⟩]

theorem saved_text_carries_document_archive :
    archive.isPlaced = true ∧ Codec.ofText? archive.prettyText = some (Document.ofGraph archive) ∧
      Codec.ofText? archive.compactText = some (Document.ofGraph archive) ∧
      ∃ g' : Graph, ofText ⟨6⟩ archive.prettyText = .ok { g' with id := ⟨6⟩ } ∧
        ofText ⟨7⟩ archive.compactText = .ok { g' with id := ⟨7⟩ } ∧
        ({ g' with id := ⟨6⟩ } : Graph).prettyText = archive.prettyText := by
  have hplaced : archive.isPlaced = true := by decide
  obtain ⟨hpretty, hcompact, hloads⟩ :=
    saved_text_carries_document ⟨5⟩ ⟨"start \"a\""⟩ _ hplaced
  obtain ⟨g', hload⟩ := hloads (by decide)
  exact ⟨hplaced, hpretty, hcompact, g', (hload ⟨6⟩).1, (hload ⟨7⟩).2.1, (hload ⟨6⟩).2.2.1⟩

/-- **A graph that was loaded is saved as a text that loads again just when all its nodes stand at
finite positions.** -/
theorem loaded_graph_loads_again {id : GraphId} {s : String} {g : Graph} (h : ofText id s = .ok g)
    (id' : GraphId) :
    ofText id' g.prettyText = if g.isPlaced then .ok { g with id := id' } else .error .malformed := by
  obtain ⟨d, hd⟩ : ∃ d, ofDocument id d = .ok g := by
    unfold ofText at h
    split at h
    · cases h
    · exact ⟨_, h⟩
  have hwell := wellFormed_ofDocument hd
  have hnamed : g.entryGuid.text ≠ "" := by
    obtain ⟨hguid, -, hg⟩ := ofDocument_ok hd
    rw [hg]
    exact hguid
  -- what was loaded is grouped already
  have hsame : g.regrouped id = g := by
    have hloads := ofDocument_ofGraph hwell hnamed id
    rw [Document.ofGraph_ofDocument hd, hd] at hloads
    exact (Except.ok.inj hloads).symm
  have hagain : g.regrouped id' = { g with id := id' } := by
    rw [← congrArg (fun g => ({ g with id := id' } : Graph)) hsame]
    rfl
  rw [ofText, ofText?_prettyText hwell]
  cases g.isPlaced with
  | true => exact (ofDocument_ofGraph hwell hnamed id').trans (congrArg Except.ok hagain)
  | false => rfl

/-- A graph of a start alone that stands at a place. -/
def lone (x y : UInt32) : Graph := (new ⟨1⟩ ⟨"start"⟩).withEntryPosition ⟨⟨x⟩, ⟨y⟩⟩

theorem loaded_graph_loads_again_lone :
    ofText ⟨1⟩ "\x7b\"entryGuid\":\"start\",\"entryPosition\":[0.1,-2.5e3]\x7d" =
        .ok (lone 0x3DCCCCCD 0xC51C4000) ∧
      ofText ⟨2⟩ (lone 0x3DCCCCCD 0xC51C4000).prettyText =
        .ok { lone 0x3DCCCCCD 0xC51C4000 with id := ⟨2⟩ } := by
  have hload : ofText ⟨1⟩ "\x7b\"entryGuid\":\"start\",\"entryPosition\":[0.1,-2.5e3]\x7d" =
      .ok (lone 0x3DCCCCCD 0xC51C4000) := by
    decide +kernel
  exact ⟨hload, (loaded_graph_loads_again hload ⟨2⟩).trans (if_pos (by decide))⟩

/-- A coordinate beyond single precision is loaded as infinite, and is lost when the graph is saved. -/
theorem far_start_is_lost :
    ∃ g, ofText ⟨1⟩ "\x7b\"entryGuid\":\"start\",\"entryPosition\":[1e39,0.0]\x7d" = .ok g ∧
      ofText ⟨1⟩ g.prettyText = .error .malformed := by
  refine ⟨lone 0x7F800000 0, by decide +kernel, ?_⟩
  have hwell : (lone 0x7F800000 0).WellFormed := (wellFormed_new ⟨1⟩ ⟨"start"⟩).of_body rfl rfl
  have hout : (lone 0x7F800000 0).isPlaced = false := by decide
  rw [ofText, ofText?_prettyText hwell, hout]
  rfl

end Graph

end Dialogue
