import Dialogue.Proofs.Session.Likeness

/-!
# What authors see and players do not

A graph carries things that are for its author only: where nodes stand, in which order they were
inserted, the guids of properties, and texts of nodes that show no line. Graphs that differ in
nothing else correspond (`Graph.Corresponds`). Correspondence is a likeness, and graphs that
correspond speak their lines alike, so no run tells them apart (`authoring_unseen`).
-/

namespace Dialogue

/-! ### Graphs that correspond -/

namespace Graph

/-- The graphs agree on the start, the links, the names and values of the properties, and the node
of each guid up to its role. -/
structure Corresponds (g g' : Graph) : Prop where
  id : g'.id = g.id
  entry : g'.entryGuid = g.entryGuid
  links : g'.links = g.links
  story : g'.story = g.story
  node : ∀ u, (g'.node? u).map Node.role = (g.node? u).map Node.role

theorem values_story (g : Graph) (name : String) :
    g.values name = (g.story.filter fun x => x.1 = name).map Prod.snd := by
  rw [values, story, List.filter_map, List.map_map]
  rfl

theorem flag?_template (g : Graph) (name : String) :
    g.flag? name = (Template.ofGraph g).conditions.lookup name := by
  rw [Template.conditions_ofGraph, Template.lookup_conditions]
  rfl

theorem shown?_template (g : Graph) (name : String) :
    g.shown? name = (Template.ofGraph g).replacement? name := by
  rw [Template.replacement?, Template.replacements_ofGraph, Template.lookup_replacements]
  rfl

theorem story_setNamed (g : Graph) (name : String) (v : PropertyValue) :
    (g.setNamed name v).story = g.story.map fun x => if x.1 = name then (x.1, v) else x := by
  simp only [setNamed, story, List.map_map]
  refine List.map_congr_left fun p _ => ?_
  simp only [Function.comp_apply]
  split <;> rfl

theorem Corresponds.template {g g' : Graph} (h : g.Corresponds g') :
    Template.ofGraph g' = .ofGraph g := by
  rw [Template.ofGraph, h.story]
  rfl

theorem Corresponds.setNamed {g g' : Graph} (h : g.Corresponds g') (name : String)
    (v : PropertyValue) : (g.setNamed name v).Corresponds (g'.setNamed name v) := by
  refine ⟨h.id, h.entry, h.links, ?_, h.node⟩
  rw [story_setNamed, story_setNamed, h.story]

theorem speakAlike_corresponds : SpeakAlike Corresponds := by
  intro g g' h n _ _
  refine spoken_congr fun cs _ => ?_
  rw [shown?_template, shown?_template, h.template]

end Graph

theorem likeness_corresponds : Graph.Likeness id Graph.Corresponds where
  injective := Function.injective_id
  alike := by
    intro g g' h
    refine Graph.alike_of_nodes h.id h.entry h.links h.node (fun name => ?_) fun name => ?_
    · rw [Graph.values_story, Graph.values_story, h.story]
    · rw [Graph.flag?_template, Graph.flag?_template, h.template]
  write := fun h _ => h.setNamed _ _

/-! ### Runs on graphs that correspond -/

/-- The calls are the same, up to registered graphs that correspond. -/
def Call.Corresponds : Call → Call → Prop
  | .register g, .register g' => g.Corresponds g'
  | c, c' => c' = c

/-- The replies are the same, up to graphs handed back that correspond. -/
def Reply.Corresponds : Reply → Reply → Prop
  | .unregistered o, .unregistered o' => Option.Rel Graph.Corresponds o o'
  | r, r' => r' = r

/-- The same can be seen of two calls. The journal holds what the host was told, what the listeners
did, and which nodes were entered. -/
structure Turn.Corresponds (t t' : Turn) : Prop where
  reply : t.reply.Corresponds t'.reply
  state : t'.after.state = t.after.state
  running : t'.after.isRunning = t.after.isRunning
  graph : t'.after.activeGraph? = t.after.activeGraph?
  node : t'.after.currentNode? = t.after.currentNode?
  line : t'.after.presentation? = t.after.presentation?
  values : ∀ name, t'.after.blackboard.get name = t.after.blackboard.get name
  journal : t'.after.journal = t.after.journal

theorem Call.Corresponds.alike {c c' : Call} (h : c.Corresponds c') :
    Call.Alike id Graph.Corresponds c c' := by
  unfold Call.Corresponds at h
  split at h
  · exact .register h
  · rename_i hother
    subst h
    cases c' with
    | register g => exact (hother g g rfl rfl).elim
    | unregister id => exact .unregister id
    | listen l => exact .listen l
    | unlisten key => exact .unlisten key
    | start id actor => exact .start id actor
    | serve server => exact .serve server
    | select port => exact .select port
    | stop => exact .stop
    | set name v => exact .set name v
    | perform p => exact .perform p

theorem Reply.Alike.corresponds {r r' : Reply} (h : Reply.Alike id Graph.Corresponds r r') :
    r.Corresponds r' := by
  cases h with
  | registered h =>
    rename_i result _
    subst h
    cases result <;> rfl
  | unregistered h => exact h
  | session h =>
    rename_i result _
    subst h
    cases result with
    | ok s => rfl
    | error e => exact congrArg (fun e => Reply.session (.error e)) e.rename_id
  | stopped => rfl
  | listening h => exact congrArg Reply.listening h
  | written h => exact congrArg Reply.written h
  | performed h => exact congrArg Reply.performed h

theorem Turn.Abreast.corresponds {t t' : Turn} (h : t.Abreast id Graph.Corresponds t') :
    t.Corresponds t' := by
  have hsame := h.same likeness_corresponds Graph.speakAlike_corresponds
  refine ⟨hsame.reply.corresponds, hsame.state, hsame.running, ?_, hsame.node, hsame.sameLine,
    hsame.values, ?_⟩
  · rw [hsame.graph, Option.map_id]
    rfl
  · rw [hsame.sameJournal, funext Entry.rename_id]
    exact List.map_id _

namespace Stage

/-- **What only authors see never shows.** Runs that make the same calls on graphs that correspond
get the same replies and are in the same state, at the same node and line, after every call; the
host is told the same, and the listeners do the same. -/
theorem authoring_unseen (config : Config) {cs cs' : List Call}
    (h : List.Forall₂ Call.Corresponds cs cs') :
    List.Forall₂ Turn.Corresponds ((new config).turns cs) ((new config).turns cs') := by
  have hcalls : List.Forall₂ (Call.Alike id Graph.Corresponds) cs cs' :=
    h.imp fun _ _ hc => hc.alike
  exact (turns_abreast likeness_corresponds config hcalls).imp fun _ _ ht => ht.corresponds

end Stage

/-- A line that is thanked for by an event. -/
def Graph.stall : Graph :=
  ⟨⟨5⟩, ⟨"start"⟩, .origin,
    [.ofKind ⟨"offer"⟩ "Apples, {price} each." (.basic none), .ofKind ⟨"pay"⟩ "" (.event "paid")],
    [⟨⟨"start"⟩, ⟨"offer"⟩, 0⟩, ⟨⟨"offer"⟩, ⟨"pay"⟩, 0⟩], [⟨⟨"p"⟩, "price", .int 3⟩]⟩

/-- The same dialogue with its nodes the other way round, a note at the event, and another guid for
the property. -/
def Graph.stallRedrawn : Graph :=
  ⟨⟨5⟩, ⟨"start"⟩, .origin,
    [⟨⟨"pay"⟩, ⟨.zero, ⟨0x3F800000⟩⟩, "a purse opens", .event "paid"⟩,
      ⟨⟨"offer"⟩, ⟨⟨0x3F800000⟩, .zero⟩, "Apples, {price} each.", .basic none⟩],
    [⟨⟨"start"⟩, ⟨"offer"⟩, 0⟩, ⟨⟨"offer"⟩, ⟨"pay"⟩, 0⟩], [⟨⟨"q"⟩, "price", .int 3⟩]⟩

theorem Graph.stall_corresponds : Graph.stall.Corresponds .stallRedrawn := by
  refine ⟨rfl, rfl, rfl, rfl, fun u => ?_⟩
  by_cases hpay : u = ⟨"pay"⟩
  · subst hpay
    rfl
  · by_cases hoffer : u = ⟨"offer"⟩
    · subst hoffer
      rfl
    · simp [node?, nodes, entry, stall, stallRedrawn, Node.ofKind, Ne.symm hpay, Ne.symm hoffer,
        List.find?_cons]

namespace Stage

/-- A price is told, raised by the host, and paid, on either drawing of the stall. -/
theorem authoring_unseen_stall : Graph.stallRedrawn ≠ .stall ∧
    List.Forall₂ Turn.Corresponds
      ((new {}).turns [.register .stall, .start ⟨5⟩ none, .set "price" (.int 4), .select 0,
        .unregister ⟨5⟩])
      ((new {}).turns [.register .stallRedrawn, .start ⟨5⟩ none, .set "price" (.int 4), .select 0,
        .unregister ⟨5⟩]) :=
  ⟨by decide, authoring_unseen {} (.cons Graph.stall_corresponds
    (.cons rfl (.cons rfl (.cons rfl (.cons rfl .nil)))))⟩

end Stage

end Dialogue
