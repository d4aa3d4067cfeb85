import Dialogue.Proofs.Graph.RoundTrip
import Dialogue.Proofs.Session.Likeness
import Mathlib.Logic.Equiv.Basic

/-!
# Playing a graph that was saved

A graph that is saved and loaded has its nodes and properties in another order, and another id. A
session goes by the order of the properties in one way only: a token of a line stands for the first
property of its name. So a run on the loaded graph goes as the one on the graph itself
(`Graph.Reloads` is a likeness), but a line may show another value where properties of different
types share a name (`Graph.Reloads.spoken_eq`). Where the first properties of the names in the lines
display alike, the runs are the same (`reload_plays_on`).
-/

namespace Dialogue

theorem Node.role_saved (n : Node) : n.saved.role = n.role := by
  obtain ⟨guid, position, text, kind⟩ := n
  cases kind <;> rfl

namespace Graph

/-! ### Loaded graphs -/

/-- The second graph is the first one under its new id, as it is or saved and loaded. -/
inductive Reloads (ρ : GraphId → GraphId) : Graph → Graph → Prop
  | renamed (g : Graph) : Reloads ρ g { g with id := ρ g.id }
  | loaded {g g' : Graph} :
    g.WellFormed → ofDocument (ρ g.id) (Document.ofGraph g) = .ok g' → Reloads ρ g g'

/-- A line of the graph has a token of the name. -/
def Mentions (g : Graph) (name : String) : Prop :=
  ∃ n ∈ g.nodes, n.kind.isLine = true ∧ .token name.toList ∈ Segment.ofChars n.text.toList

/-- The names that the lines of a graph mention come to the same in another graph. -/
def ShowsAs (g g' : Graph) : Prop := ∀ name, g.Mentions name → g'.shown? name = g.shown? name

section

variable {g : Graph}

/-- Only truth values are read for a branch, and these stay in order. -/
theorem flag?_regrouped (g : Graph) (id : GraphId) (name : String) :
    (g.regrouped id).flag? name = g.flag? name := by
  have hother : ∀ p : Property, p.kind ≠ .bool →
      (if p.name = name then p.value.bool? else none) = none := by
    intro p hp
    obtain ⟨guid, pname, value⟩ := p
    cases value with
    | bool b => exact absurd rfl hp
    | _ => exact ite_self _
  rw [flag?, flag?, ← List.head?_filterMap, ← List.head?_filterMap]
  exact congrArg List.head? (filterMap_grouped (by decide) (by decide) hother)

theorem properties_regrouped_perm (g : Graph) (id : GraphId) :
    (g.regrouped id).properties.Perm g.properties :=
  grouped_perm (by decide) fun p _ => by cases p.kind <;> decide

theorem alike_regrouped {ρ : GraphId → GraphId} (h : g.WellFormed) :
    g.Alike ρ (g.regrouped (ρ g.id)) := by
  refine alike_of_nodes rfl rfl rfl (fun u => ?_) (fun name => ?_) (g.flag?_regrouped _)
  · rw [node?_regrouped h, Option.map_map]
    congr 1
    exact funext Node.role_saved
  · exact ((g.properties_regrouped_perm _).filter _).map Property.value

end

theorem Reloads.alike {ρ : GraphId → GraphId} {g g' : Graph} (h : g.Reloads ρ g') :
    g.Alike ρ g' := by
  cases h with
  | renamed => exact g.alike_renamed ρ
  | loaded hwell hload =>
    obtain ⟨-, rfl⟩ := eq_regrouped_of_load hwell hload
    exact alike_regrouped hwell

theorem Reloads.properties {ρ : GraphId → GraphId} {g g' : Graph} (h : g.Reloads ρ g') :
    g'.properties = g.properties ∨
      g'.properties = grouped Property.kind PropertyKind.saveOrder g.properties := by
  cases h with
  | renamed => exact Or.inl rfl
  | loaded hwell hload =>
    obtain ⟨-, rfl⟩ := eq_regrouped_of_load hwell hload
    exact Or.inr rfl

/-! ### Lines of loaded graphs -/

theorem shown?_eq_head? (g : Graph) (name : String) :
    g.shown? name = (g.values name).head?.map PropertyValue.display := by
  rw [shown?, values, List.head?_map, List.head?_filter, Option.map_map]
  rfl

theorem Alike.shown?_of_length_le {ρ : GraphId → GraphId} {g g' : Graph} (h : g.Alike ρ g')
    {name : String} (hone : (g.values name).length ≤ 1) : g'.shown? name = g.shown? name := by
  have hperm := h.values name
  have hsame : g'.values name = g.values name := by
    match hvalues : g.values name with
    | [] =>
      rw [hvalues] at hperm
      exact hperm.eq_nil
    | [v] =>
      rw [hvalues] at hperm
      exact List.perm_singleton.mp hperm
    | v :: w :: vs => simp [hvalues] at hone
  rw [shown?_eq_head?, shown?_eq_head?, hsame]

/-- A text reads the same if no name in it is shared by properties that display differently. -/
theorem Reloads.spoken_eq {ρ : GraphId → GraphId} {g g' : Graph} (h : g.Reloads ρ g') (text : String)
    (htokens : ∀ cs, .token cs ∈ Segment.ofChars text.toList →
      (g.values (String.ofList cs)).length ≤ 1 ∨
        g'.shown? (String.ofList cs) = g.shown? (String.ofList cs)) :
    g'.spoken text = g.spoken text := by
  refine spoken_congr fun cs hcs => ?_
  rcases htokens cs hcs with hone | hshown
  · exact h.alike.shown?_of_length_le hone
  · exact hshown

section

variable {g : Graph}

/-! ### Writes to loaded graphs -/

theorem setNamed_regrouped {name : String} {v : PropertyValue}
    (h : ∀ p ∈ g.properties, p.name = name → p.kind = v.kind) (id : GraphId) :
    (g.setNamed name v).regrouped id = (g.regrouped id).setNamed name v := by
  have hkind : ∀ p ∈ g.properties,
      (if p.name = name then { p with value := v } else p).kind = p.kind := by
    intro p hp
    split
    · rename_i hname
      exact (h p hp hname).symm
    · rfl
  simp only [regrouped, setNamed, grouped_map hkind]

theorem shown?_setNamed (g : Graph) (name : String) (v : PropertyValue) (x : String) :
    (g.setNamed name v).shown? x =
      (g.shown? x).map fun value => if x = name then v.display else value := by
  simp only [shown?, setNamed]
  induction g.properties with
  | nil => rfl
  | cons p ps ih =>
    by_cases hp : p.name = x
    · subst hp
      by_cases hname : p.name = name <;> simp [hname]
    · have hother : ¬ (if p.name = name then { p with value := v } else p).name = x := by
        split <;> exact hp
      rw [List.map_cons, List.find?_cons_of_neg (by simpa using hother),
        List.find?_cons_of_neg (by simpa using hp)]
      exact ih

theorem ShowsAs.setNamed {g' : Graph} (h : g.ShowsAs g') (name : String) (v : PropertyValue) :
    (g.setNamed name v).ShowsAs (g'.setNamed name v) := by
  intro x hx
  rw [shown?_setNamed, shown?_setNamed, h x hx]

end

end Graph

/-! ### The likeness -/

section

variable {ρ : GraphId → GraphId}

theorem likeness_reloads (hρ : Function.Injective ρ) : Graph.Likeness ρ (Graph.Reloads ρ) where
  injective := hρ
  alike := fun h => h.alike
  write := by
    intro g g' name v h hkinds
    cases h with
    | renamed => exact .renamed (g.setNamed name v)
    | loaded hwell hload =>
      obtain ⟨hguid, rfl⟩ := Graph.eq_regrouped_of_load hwell hload
      have hwrite : (g.setNamed name v).WellFormed := ⟨hwell.distinct, hwell.oneEntry⟩
      refine .loaded hwrite ?_
      rw [← Graph.setNamed_regrouped hkinds]
      exact Graph.ofDocument_ofGraph hwrite hguid (ρ g.id)

theorem Graph.Likeness.showing {R : Graph → Graph → Prop} (hR : Graph.Likeness ρ R) :
    Graph.Likeness ρ fun g g' => R g g' ∧ g.ShowsAs g' where
  injective := hR.injective
  alike := fun h => hR.alike h.1
  write := fun h hkinds => ⟨hR.write h.1 hkinds, h.2.setNamed _ _⟩

theorem speakAlike_showing (R : Graph → Graph → Prop) :
    Graph.SpeakAlike fun g g' => R g g' ∧ g.ShowsAs g' := by
  intro g g' h n hn hline
  refine Graph.spoken_congr fun cs hcs => h.2 _ ⟨n, hn, hline, ?_⟩
  rwa [String.toList_ofList]

end

/-! ### Runs on loaded graphs -/

namespace Stage

/-- **A graph that is saved and loaded plays on.** A graph that is built loads, under any id, with its
properties in the order in which they are saved. Runs that make the same calls, with loaded graphs in
place of some graphs, go alike: with the same replies, states, nodes, options and values, and the same
told to the host, up to ids and the texts of lines. The two texts of a line are the text of one node,
with the values that the two graphs have that are registered when the line is shown, so they are the
same unless a name in that line is shared by properties of which the first ones display differently. If
no line has such a name, the runs are the same. -/
theorem reload_plays_on {ρ : GraphId → GraphId} (hρ : Function.Injective ρ) :
    (∀ g : Graph, g.Built → ∃ g',
      Graph.ofDocument (ρ g.id) (Document.ofGraph g) = .ok g' ∧ g.Reloads ρ g' ∧
        g'.properties = grouped Property.kind PropertyKind.saveOrder g.properties) ∧
    (∀ g g' : Graph, g.Reloads ρ g' →
      (g'.properties = g.properties ∨
        g'.properties = grouped Property.kind PropertyKind.saveOrder g.properties) ∧
      ∀ text : String, (∀ cs, .token cs ∈ Segment.ofChars text.toList →
        (g.values (String.ofList cs)).length ≤ 1 ∨
          g'.shown? (String.ofList cs) = g.shown? (String.ofList cs)) →
        g'.spoken text = g.spoken text) ∧
    ∀ (config : Config) (cs cs' : List Call),
      (List.Forall₂ (Call.Alike ρ (Graph.Reloads ρ)) cs cs' →
        List.Forall₂ (Turn.Alike ρ (Graph.Reloads ρ)) ((new config).turns cs)
          ((new config).turns cs')) ∧
      (List.Forall₂ (Call.Alike ρ fun g g' => g.Reloads ρ g' ∧ g.ShowsAs g') cs cs' →
        List.Forall₂ (Turn.Same ρ fun g g' => g.Reloads ρ g' ∧ g.ShowsAs g')
          ((new config).turns cs) ((new config).turns cs')) := by
  refine ⟨fun g hg => ?_, fun g g' h => ⟨h.properties, h.spoken_eq⟩, fun config cs cs' =>
    ⟨fun h => ?_, fun h => ?_⟩⟩
  · have hload := Graph.ofDocument_ofGraph hg.wellFormed hg.named (ρ g.id)
    exact ⟨_, hload, .loaded hg.wellFormed hload, rfl⟩
  · exact (turns_abreast (likeness_reloads hρ) config h).imp fun _ _ ht =>
      ht.alike (likeness_reloads hρ)
  · exact (turns_abreast (likeness_reloads hρ).showing config h).imp fun _ _ ht =>
      ht.same (likeness_reloads hρ).showing (speakAlike_showing (Graph.Reloads ρ))

end Stage

/-- A line with a name that two properties share, a text declared before an integer; both display
alike. -/
def Graph.tavern : Graph :=
  (new ⟨8⟩ ⟨"start"⟩).edited
    [.node (.ofKind ⟨"hall"⟩ "{guests} guests" (.basic none)), .link ⟨⟨"start"⟩, ⟨"hall"⟩, 0⟩,
      .property ⟨⟨"p1"⟩, "guests", .string "4"⟩, .property ⟨⟨"p2"⟩, "guests", .int 4⟩]

theorem Graph.showsAs_tavern : Graph.tavern.ShowsAs (Graph.tavern.regrouped ⟨9⟩) := by
  intro name _
  by_cases hname : name = "guests"
  · subst hname
    decide
  · have hother : ∀ ps : List Property, (∀ p ∈ ps, p.name = "guests") →
        (ps.find? fun p => p.name = name) = none := by
      intro ps hps
      rw [List.find?_eq_none]
      intro p hp
      simpa [hps p hp] using Ne.symm hname
    rw [shown?, shown?, hother _ (by decide), hother _ (by decide)]

namespace Stage

/-- A session on the tavern, and one on the tavern saved and loaded, under exchanged ids. -/
theorem reload_plays_on_tavern : Graph.tavern.Built ∧ ∃ g',
    Graph.ofDocument ⟨9⟩ (Document.ofGraph .tavern) = .ok g' ∧
      g'.properties ≠ Graph.tavern.properties ∧
      List.Forall₂ (Turn.Same (Equiv.swap ⟨8⟩ ⟨9⟩) fun g g' =>
          g.Reloads (Equiv.swap ⟨8⟩ ⟨9⟩) g' ∧ g.ShowsAs g')
        ((new {}).turns [.register .tavern, .start ⟨8⟩ none, .select 0])
        ((new {}).turns [.register g', .start ⟨9⟩ none, .select 0]) := by
  have hplays := reload_plays_on (Equiv.swap (⟨8⟩ : GraphId) ⟨9⟩).injective
  have hbuilt : Graph.tavern.Built := ⟨_, _, _, by decide, rfl⟩
  obtain ⟨g', hload, hreloads, -⟩ := hplays.1 .tavern hbuilt
  have hid : Equiv.swap (⟨8⟩ : GraphId) ⟨9⟩ ⟨8⟩ = ⟨9⟩ := Equiv.swap_apply_left _ _
  obtain ⟨-, rfl⟩ := Graph.eq_regrouped_of_load hbuilt.wellFormed hload
  have hstart := Call.Alike.start (ρ := Equiv.swap (⟨8⟩ : GraphId) ⟨9⟩)
    (R := fun g g' => g.Reloads (Equiv.swap ⟨8⟩ ⟨9⟩) g' ∧ g.ShowsAs g') ⟨8⟩ none
  rw [hid] at hstart
  exact ⟨hbuilt, _, hload, by decide, (hplays.2.2 {} _ _).2
    (.cons (.register ⟨hreloads, Graph.showsAs_tavern⟩) (.cons hstart (.cons (.select 0) .nil)))⟩

end Stage

/-- A line with a name that two properties share, a text declared before an integer. -/
def Graph.cellar : Graph :=
  (new ⟨6⟩ ⟨"start"⟩).edited
    [.node (.ofKind ⟨"sign"⟩ "{wine}" (.basic none)), .link ⟨⟨"start"⟩, ⟨"sign"⟩, 0⟩,
      .property ⟨⟨"p1"⟩, "wine", .string "red"⟩, .property ⟨⟨"p2"⟩, "wine", .int 1⟩]

namespace Stage

/-- The line shows the text at first, and the integer after the graph was saved and loaded. -/
theorem reload_shows_another : Graph.cellar.Built ∧ ∃ g',
    Graph.ofDocument ⟨7⟩ (Document.ofGraph .cellar) = .ok g' ∧
      ((new {}).run [.register .cellar, .start ⟨6⟩ none]).2.presentation? =
        some ⟨⟨"sign"⟩, "red", [⟨0, "Continue"⟩], none⟩ ∧
      ((new {}).run [.register g', .start ⟨7⟩ none]).2.presentation? =
        some ⟨⟨"sign"⟩, "1", [⟨0, "Continue"⟩], none⟩ := by
  have hbuilt : Graph.cellar.Built := ⟨_, _, _, by decide, rfl⟩
  refine ⟨hbuilt, _, Graph.ofDocument_ofGraph hbuilt.wellFormed hbuilt.named ⟨7⟩, ?_, ?_⟩
  · decide +kernel
  · decide +kernel

end Stage

end Dialogue
