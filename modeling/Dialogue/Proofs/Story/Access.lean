import Dialogue.Proofs.Story.Order

/-!
# Access to properties

A name is looked for by going through all properties of all graphs, with the place of the first match
and a count of the matches (`Blackboard.scan`); the property is then read or written by its place, an
access that comes to nothing where no property is at the place (`readAt?`, `writeAt?`). A name is found
just when it has one place (`Resolution`), and there is a property at that place. So reading and
writing by place always come to what reading and writing by name come to, and a write changes the one
property of its name and nothing else (`access_exact`).
-/

namespace Dialogue

/-- A place on a blackboard: of a graph among the graphs, and of a property in it. -/
structure Place where
  graph : Nat
  property : Nat
deriving DecidableEq

namespace Blackboard

/-- The property at a place. -/
def property? (b : Blackboard) (x : Place) : Option Property :=
  b.graphs[x.graph]?.bind fun g => g.properties[x.property]?

/-- The blackboard with a value written at a place. -/
def put (b : Blackboard) (x : Place) (v : PropertyValue) : Blackboard :=
  ⟨b.graphs.modify x.graph fun g => g.setValueAt x.property v⟩

/-- The number of properties with a name, over all graphs. -/
def count (b : Blackboard) (name : String) : Nat :=
  (b.graphs.flatMap Graph.properties).countP fun p => p.name = name

/-- The property at a place of a graph is the only one with its name. -/
structure Sole (b : Blackboard) (name : String) (x : Place) (g : Graph) (p : Property) : Prop where
  graph : b.graphs[x.graph]? = some g
  property : g.properties[x.property]? = some p
  named : p.name = name
  count : b.count name = 1

/-! ### Going through the properties -/

/-- Takes in a match: the first one stays, and the count goes up. -/
def note (seen : Option Place × Nat) (x : Place) : Option Place × Nat :=
  (seen.1.or (some x), seen.2 + 1)

/-- Goes through the properties of the graph at an index. -/
def scanGraph (name : String) (seen : Option Place × Nat) (g : Graph × Nat) : Option Place × Nat :=
  g.1.properties.zipIdx.foldl
    (fun seen p => if p.1.name = name then note seen ⟨g.2, p.2⟩ else seen) seen

/-- The place of the first property with a name, and how many there are. -/
def scan (b : Blackboard) (name : String) : Option Place × Nat :=
  b.graphs.zipIdx.foldl (scanGraph name) (none, 0)

/-- The place of the one property with a name. -/
def locate (b : Blackboard) (name : String) : Except PropertyError Place :=
  match b.scan name with
  | (none, _) => .error (.notFound name)
  | (some x, 1) => .ok x
  | (some _, n) => .error (.ambiguous name n)

/-- Reads the property of a name by its place. -/
def readAt? (b : Blackboard) (name : String) : Option (Except PropertyError PropertyValue) :=
  match b.locate name with
  | .error e => some (.error e)
  | .ok x => (b.property? x).map fun p => .ok p.value

/-- Writes to the property of a name by its place. The answer has the owner of the property, and the
blackboard as it is then. -/
def writeAt? (b : Blackboard) (name : String) (v : PropertyValue) :
    Option (Except PropertyError GraphId × Blackboard) :=
  match b.locate name with
  | .error e => some (.error e, b)
  | .ok x => b.graphs[x.graph]?.bind fun g => g.properties[x.property]?.map fun p =>
    if p.kind = v.kind then (.ok g.id, b.put x v)
    else (.error (.typeMismatch name p.kind v.kind), b)

/-- The places of the properties with a name, in order. -/
def places (b : Blackboard) (name : String) : List Place :=
  b.graphs.zipIdx.flatMap fun g =>
    (g.1.properties.zipIdx.filter fun p => p.1.name = name).map fun p => ⟨g.2, p.2⟩

section

variable {b : Blackboard} {name : String} {x : Place} {g : Graph} {p : Property}

theorem foldl_note (xs : List Place) (seen : Option Place × Nat) :
    xs.foldl note seen = (seen.1.or xs.head?, seen.2 + xs.length) := by
  induction xs generalizing seen with
  | nil => simp
  | cons x xs ih =>
    rw [List.foldl_cons, ih, note, List.length_cons, List.head?_cons]
    refine Prod.ext ?_ (by simp only; omega)
    cases seen.1 <;> rfl

theorem scan_eq (b : Blackboard) (name : String) :
    b.scan name = ((b.places name).head?, (b.places name).length) := by
  have hgraph : scanGraph name = fun seen g =>
      ((g.1.properties.zipIdx.filter fun p => p.1.name = name).map fun p => ⟨g.2, p.2⟩).foldl
        note seen := by
    funext seen g
    rw [scanGraph, List.foldl_map, List.foldl_filter]
    simp only [decide_eq_true_eq]
  rw [scan, hgraph, ← List.foldl_flatMap, foldl_note]
  simp [places]

theorem mem_places : x ∈ b.places name ↔ ∃ p, b.property? x = some p ∧ p.name = name := by
  simp only [places, property?, List.mem_flatMap, List.mem_map, List.mem_filter, decide_eq_true_eq,
    Option.bind_eq_some_iff]
  constructor
  · rintro ⟨⟨g, i⟩, hg, ⟨p, j⟩, ⟨hp, hname⟩, rfl⟩
    exact ⟨p, ⟨g, List.mem_zipIdx_iff_getElem?.mp hg, List.mem_zipIdx_iff_getElem?.mp hp⟩, hname⟩
  · rintro ⟨p, ⟨g, hg, hp⟩, hname⟩
    exact ⟨(g, x.graph), List.mem_zipIdx_iff_getElem?.mpr hg, (p, x.property),
      ⟨List.mem_zipIdx_iff_getElem?.mpr hp, hname⟩, rfl⟩

theorem length_places (b : Blackboard) (name : String) :
    (b.places name).length = b.count name := by
  have hgraph : ∀ g : Graph × Nat, ((g.1.properties.zipIdx.filter fun p => p.1.name = name).map
      fun p => (⟨g.2, p.2⟩ : Place)).length = g.1.properties.countP fun p => p.name = name := by
    intro g
    rw [List.length_map, List.countP_eq_length_filter]
    conv_rhs => rw [← List.zipIdx_map_fst 0 g.1.properties, List.filter_map, List.length_map]
    rfl
  simp only [places, List.length_flatMap, hgraph]
  conv_rhs => rw [count, ← List.zipIdx_map_fst 0 b.graphs, List.countP_flatMap, List.map_map]
  rfl

theorem length_named (b : Blackboard) (name : String) : (b.named name).length = b.count name := by
  rw [named, count, List.length_flatMap, List.countP_flatMap]
  simp only [List.length_map, List.countP_eq_length_filter, Function.comp_def]

/-! ### Names with one property -/

theorem Sole.property? (h : b.Sole name x g p) : b.property? x = some p := by
  rw [Blackboard.property?, h.graph]
  exact h.property

theorem Sole.mem (h : b.Sole name x g p) : g ∈ b.graphs := List.mem_of_getElem? h.graph

theorem Sole.only (h : b.Sole name x g p) {y : Place} {q : Property} (hy : b.property? y = some q)
    (hname : q.name = name) : y = x := by
  obtain ⟨z, hz⟩ := List.length_eq_one_iff.mp ((b.length_places name).trans h.count)
  have hx : x ∈ b.places name := mem_places.mpr ⟨p, h.property?, h.named⟩
  have hy : y ∈ b.places name := mem_places.mpr ⟨q, hy, hname⟩
  rw [hz, List.mem_singleton] at hx hy
  rw [hx, hy]

theorem Sole.resolve (h : b.Sole name x g p) : b.resolve name = .ok (g.id, p) := by
  obtain ⟨y, hy⟩ := List.length_eq_one_iff.mp ((b.length_named name).trans h.count)
  have hmem : (g.id, p) ∈ b.named name :=
    mem_named.mpr ⟨g, h.mem, rfl, List.mem_of_getElem? h.property, h.named⟩
  rw [hy, List.mem_singleton] at hmem
  rw [Blackboard.resolve, hy, hmem]

end

/-- What is found of a name: by its properties, and by going through all properties. -/
inductive Resolution (b : Blackboard) (name : String) : Prop
  | missing (count : b.count name = 0) (resolve : b.resolve name = .error (.notFound name))
      (locate : b.locate name = .error (.notFound name))
  | several (count : 2 ≤ b.count name)
      (resolve : b.resolve name = .error (.ambiguous name (b.count name)))
      (locate : b.locate name = .error (.ambiguous name (b.count name)))
  | sole (x : Place) (g : Graph) (p : Property) (sole : b.Sole name x g p)
      (locate : b.locate name = .ok x)

/-- **The first match and the count tell what all properties of the name tell.** -/
theorem resolution (b : Blackboard) (name : String) : b.Resolution name := by
  have hscan := b.scan_eq name
  have hlength := b.length_places name
  have hnamed := b.length_named name
  rw [← hlength] at hnamed
  match hplaces : b.places name with
  | [] =>
    rw [hplaces] at hscan hlength hnamed
    refine .missing hlength.symm ?_ ?_
    · rw [resolve, List.length_eq_zero_iff.mp hnamed]
    · rw [locate, hscan]
      rfl
  | [x] =>
    rw [hplaces] at hscan hlength
    obtain ⟨p, hp, hname⟩ := mem_places.mp (hplaces ▸ List.mem_singleton_self x)
    obtain ⟨g, hg, hgp⟩ := Option.bind_eq_some_iff.mp hp
    refine .sole x g p ⟨hg, hgp, hname, hlength.symm⟩ ?_
    rw [locate, hscan]
    rfl
  | x :: y :: xs =>
    rw [hplaces] at hscan hlength hnamed
    refine .several (by rw [← hlength]; simp) ?_ ?_
    · match hb : b.named name with
      | [] => simp [hb] at hnamed
      | [z] => simp [hb] at hnamed
      | z :: z' :: zs =>
        rw [hb] at hnamed
        rw [resolve, hb, ← hlength, ← hnamed]
    · rw [locate, hscan, ← hlength]
      rfl

theorem exists_sole {b : Blackboard} {name : String} (h : b.count name = 1) :
    ∃ x g p, b.Sole name x g p := by
  cases b.resolution name with
  | missing hcount _ _ => omega
  | several hcount _ _ => omega
  | sole x g p hsole _ => exact ⟨x, g, p, hsole⟩

/-! ### Writing at a place -/

theorem graphs_put (b : Blackboard) (x : Place) (v : PropertyValue) (i : Nat) :
    (b.put x v).graphs[i]? =
      b.graphs[i]?.map fun g => if x.graph = i then g.setValueAt x.property v else g := by
  rw [put, List.getElem?_modify]
  rfl

theorem properties_setValueAt (g : Graph) (i : Nat) (v : PropertyValue) (j : Nat) :
    (g.setValueAt i v).properties[j]? =
      g.properties[j]?.map fun p => if i = j then { p with value := v } else p := by
  rw [Graph.setValueAt, List.getElem?_modify]
  rfl

theorem property?_put (b : Blackboard) (x : Place) (v : PropertyValue) (y : Place) :
    (b.put x v).property? y =
      (b.property? y).map fun p => if x = y then { p with value := v } else p := by
  obtain ⟨i, j⟩ := x
  obtain ⟨i', j'⟩ := y
  rw [property?, property?, graphs_put]
  cases b.graphs[i']? with
  | none => rfl
  | some g =>
    by_cases hi : i = i'
    · subst hi
      simp only [Option.map_some, if_true, Option.bind_some, properties_setValueAt,
        Place.mk.injEq, true_and]
    · simp [hi]

theorem names_put (b : Blackboard) (x : Place) (v : PropertyValue) :
    (b.put x v).graphs.map (fun g => g.properties.map Property.name) =
      b.graphs.map fun g => g.properties.map Property.name := by
  refine List.ext_getElem? fun i => ?_
  rw [List.getElem?_map, List.getElem?_map, graphs_put, Option.map_map]
  congr 1
  funext g
  simp only [Function.comp_apply]
  split
  · refine List.ext_getElem? fun j => ?_
    rw [List.getElem?_map, List.getElem?_map, properties_setValueAt, Option.map_map]
    congr 1
    funext p
    simp only [Function.comp_apply]
    split <;> rfl
  · rfl

theorem count_put (b : Blackboard) (x : Place) (v : PropertyValue) (name : String) :
    (b.put x v).count name = b.count name := by
  have hnames : ∀ c : Blackboard, c.count name =
      (c.graphs.map fun g => g.properties.map Property.name).flatten.countP (· = name) := by
    intro c
    simp only [count, List.countP_flatMap, List.countP_flatten, List.map_map, Function.comp_def,
      List.countP_map]
  rw [hnames, hnames, names_put]

theorem put_put (b : Blackboard) (x : Place) (v w : PropertyValue) :
    (b.put x v).put x w = b.put x w := by
  simp only [put, List.modify_modify_eq]
  congr 2
  funext g
  simp only [Function.comp_apply, Graph.setValueAt, List.modify_modify_eq]
  rfl

theorem put_comm (b : Blackboard) {x y : Place} (hne : x ≠ y) (v w : PropertyValue) :
    (b.put x v).put y w = (b.put y w).put x v := by
  obtain ⟨i, j⟩ := x
  obtain ⟨i', j'⟩ := y
  by_cases hi : i = i'
  · subst hi
    have hj : j ≠ j' := fun hj => hne (by rw [hj])
    simp only [put, List.modify_modify_eq]
    congr 2
    funext g
    simp only [Function.comp_apply, Graph.setValueAt, List.modify_modify_ne _ _ _ hj]
  · simp only [put, List.modify_modify_ne _ _ _ hi]

section

variable {b : Blackboard} {name : String} {x : Place} {g : Graph} {p : Property}

theorem Sole.put (h : b.Sole name x g p) (y : Place) (v : PropertyValue) :
    ∃ g', g'.id = g.id ∧
      (b.put y v).Sole name x g' (if y = x then { p with value := v } else p) := by
  have hproperty := b.property?_put y v x
  rw [h.property?, Option.map_some] at hproperty
  obtain ⟨g', hg', hp'⟩ := Option.bind_eq_some_iff.mp hproperty
  refine ⟨g', ?_, hg', hp', ?_, (b.count_put y v name).trans h.count⟩
  · rw [graphs_put, h.graph, Option.map_some, Option.some.injEq] at hg'
    rw [← hg']
    split <;> rfl
  · rw [← h.named]
    split <;> rfl

theorem Sole.map_setNamed (h : b.Sole name x g p) (v : PropertyValue) :
    (⟨b.graphs.map fun g => g.setNamed name v⟩ : Blackboard) = b.put x v := by
  refine congrArg Blackboard.mk (List.ext_getElem? fun i => ?_)
  rw [List.getElem?_map, show (b.graphs.modify _ _)[i]? = _ from b.graphs_put x v i]
  cases hg : b.graphs[i]? with
  | none => rfl
  | some g' =>
    rw [Option.map_some, Option.map_some, Option.some.injEq]
    have hplace : ∀ j q, g'.properties[j]? = some q → (q.name = name ↔ x = ⟨i, j⟩) := by
      intro j q hq
      have hat : b.property? ⟨i, j⟩ = some q := by rw [Blackboard.property?, hg]; exact hq
      refine ⟨fun hname => (h.only hat hname).symm, fun heq => ?_⟩
      rw [← heq, h.property?] at hat
      rw [← Option.some.inj hat, h.named]
    by_cases hi : x.graph = i
    · rw [if_pos hi]
      have hproperties : (g'.setNamed name v).properties =
          (g'.setValueAt x.property v).properties := by
        refine List.ext_getElem? fun j => ?_
        rw [properties_setValueAt, Graph.setNamed, List.getElem?_map]
        cases hq : g'.properties[j]? with
        | none => rfl
        | some q =>
          have hiff : q.name = name ↔ x.property = j := by
            rw [hplace j q hq, ← hi]
            exact ⟨fun heq => congrArg Place.property heq, fun heq => by rw [← heq]⟩
          simp only [Option.map_some, hiff]
      exact congrArg (fun ps => { g' with properties := ps }) hproperties
    · rw [if_neg hi]
      refine Graph.setNamed_of_absent v fun q hq hname => ?_
      obtain ⟨j, hj⟩ := List.mem_iff_getElem?.mp hq
      exact hi (congrArg Place.graph ((hplace j q hj).mp hname))

theorem Sole.set (h : b.Sole name x g p) (v : PropertyValue) : b.set name v =
    if p.kind = v.kind then .ok (g.id, b.put x v)
    else .error (.typeMismatch name p.kind v.kind) := by
  rw [Blackboard.set, h.resolve, h.map_setNamed]

theorem Sole.get (h : b.Sole name x g p) : b.get name = .ok p.value := by
  rw [Blackboard.get, h.resolve]

end

theorem get_of_error {b : Blackboard} {name : String} {e : PropertyError}
    (h : b.resolve name = .error e) : b.get name = .error e := by
  rw [get, h]

theorem set_of_unresolved {b : Blackboard} {name : String} {e : PropertyError}
    (h : b.resolve name = .error e) (v : PropertyValue) : b.set name v = .error e := by
  rw [set, h]

theorem not_sole_of_error {b : Blackboard} {name : String} {e : PropertyError}
    (h : b.resolve name = .error e) {x : Place} {g : Graph} {p : Property} :
    ¬ b.Sole name x g p := by
  intro hsole
  rw [hsole.resolve] at h
  cases h

/-! ### Access by place and by name -/

theorem readAt?_eq (b : Blackboard) (name : String) : b.readAt? name = some (b.get name) := by
  cases b.resolution name with
  | missing _ hresolve hlocate => rw [readAt?, hlocate, get_of_error hresolve]
  | several _ hresolve hlocate => rw [readAt?, hlocate, get_of_error hresolve]
  | sole x g p hsole hlocate =>
    rw [readAt?, hlocate, hsole.get]
    simp only [hsole.property?, Option.map_some]

theorem writeAt?_eq (b : Blackboard) (name : String) (v : PropertyValue) :
    (b.writeAt? name v).map (fun r => (.written r.1, r.2)) = some (b.ask (.set name v)) := by
  cases b.resolution name with
  | missing _ hresolve hlocate => simp only [writeAt?, hlocate, ask, set_of_unresolved hresolve,
      Option.map_some]
  | several _ hresolve hlocate => simp only [writeAt?, hlocate, ask, set_of_unresolved hresolve,
      Option.map_some]
  | sole x g p hsole hlocate =>
    simp only [writeAt?, hlocate, ask, hsole.set, hsole.graph, hsole.property, Option.bind_some,
      Option.map_some]
    split <;> rfl

/-- What a write that succeeds comes to. -/
structure Written (b : Blackboard) (name : String) (v : PropertyValue) (owner : GraphId)
    (b' : Blackboard) : Prop where
  /-- The one property of the name has the value, and those at other places are as they were. -/
  place : ∃ x g p, b.Sole name x g p ∧ g.id = owner ∧ b'.property? x = some { p with value := v } ∧
    ∀ y, y ≠ x → b'.property? y = b.property? y
  /-- Where ids are distinct, the answer names the graph that has the property. -/
  owned : b.Distinct → ∃ g, b.graph? owner = some g ∧ ∃ p ∈ g.properties, p.name = name
  /-- Nodes, links, and the guids, names and kinds of properties are as they were. -/
  outline : b'.outline = b.outline
  read : b'.get name = .ok v
  /-- The next write to the name comes to what it would have come to before. -/
  again : ∀ w, b'.set name w = b.set name w
  repeatable : ∀ w, w.kind = v.kind → ∃ c, b'.set name w = .ok (owner, c)
  commutes : ∀ name' v' owner' c, name' ≠ name → b'.set name' v' = .ok (owner', c) →
    ∃ c', b.set name' v' = .ok (owner', c') ∧ c'.set name v = .ok (owner, c)

theorem sole_of_set {b b' : Blackboard} {name : String} {v : PropertyValue} {owner : GraphId}
    (h : b.set name v = .ok (owner, b')) : ∃ x g p, b.Sole name x g p ∧ p.kind = v.kind ∧
      g.id = owner ∧ b.put x v = b' := by
  cases b.resolution name with
  | missing _ hresolve _ =>
    rw [set_of_unresolved hresolve] at h
    cases h
  | several _ hresolve _ =>
    rw [set_of_unresolved hresolve] at h
    cases h
  | sole x g p hsole _ =>
    rw [hsole.set] at h
    split at h
    · rename_i hkind
      cases h
      exact ⟨x, g, p, hsole, hkind, rfl, rfl⟩
    · cases h

theorem set_comm {b b' c : Blackboard} {name name' : String} {v v' : PropertyValue}
    {owner owner' : GraphId} (hne : name' ≠ name) (h : b.set name v = .ok (owner, b'))
    (h' : b'.set name' v' = .ok (owner', c)) :
    ∃ c', b.set name' v' = .ok (owner', c') ∧ c'.set name v = .ok (owner, c) := by
  obtain ⟨x, g, p, hx, hkind, rfl, rfl⟩ := sole_of_set h
  obtain ⟨z, l, r, hafter, -⟩ := sole_of_set h'
  -- the other name has one property before the first write as well, at another place
  obtain ⟨y, k, q, hy⟩ := exists_sole ((b.count_put x v name').symm.trans hafter.count)
  have hplaces : x ≠ y := by
    rintro rfl
    obtain rfl := Option.some.inj (hx.property?.symm.trans hy.property?)
    exact hne (hy.named.symm.trans hx.named)
  obtain ⟨k', hk', hsecond⟩ := hy.put x v
  obtain ⟨g', hg', hfirst⟩ := hx.put y v'
  rw [if_neg hplaces] at hsecond
  rw [if_neg (Ne.symm hplaces)] at hfirst
  rw [hsecond.set] at h'
  split at h'
  · rename_i hkind'
    simp only [Except.ok.injEq, Prod.mk.injEq] at h'
    obtain ⟨howner, hboard⟩ := h'
    refine ⟨b.put y v', ?_, ?_⟩
    · rw [hy.set, if_pos hkind', ← hk', howner]
    · rw [hfirst.set, if_pos hkind, hg', put_comm b (Ne.symm hplaces), hboard]
  · cases h'

theorem written_of_set {b b' : Blackboard} {name : String} {v : PropertyValue} {owner : GraphId}
    (h : b.set name v = .ok (owner, b')) : b.Written name v owner b' := by
  obtain ⟨x, g, p, hsole, hkind, rfl, rfl⟩ := sole_of_set h
  obtain ⟨g', hid, hafter⟩ := hsole.put x v
  rw [if_pos rfl] at hafter
  have hkind' : Property.kind { p with value := v } = v.kind := rfl
  have hagain : ∀ w, (b.put x v).set name w = b.set name w := by
    intro w
    rw [hafter.set, hsole.set, put_put, hid, hkind', hkind]
  refine ⟨⟨x, g, p, hsole, rfl, hafter.property?, fun y hy => ?_⟩, fun hb => ?_,
    outline_of_set h, hafter.get, hagain, fun w hw => ?_,
    fun name' v' owner' c hne hset => set_comm hne h hset⟩
  · rw [property?_put]
    simp [Ne.symm hy]
  · exact ⟨g, hb.graph?_of_mem hsole.mem, p, List.mem_of_getElem? hsole.property, hsole.named⟩
  · rw [hagain, hsole.set, if_pos (hkind.trans hw.symm)]
    exact ⟨_, rfl⟩

/-! ### The outcomes of access -/

section

variable {b : Blackboard} {name : String}

theorem get_eq_notFound_iff : b.get name = .error (.notFound name) ↔ b.count name = 0 := by
  cases b.resolution name with
  | missing hcount hresolve _ => simp [get_of_error hresolve, hcount]
  | several hcount hresolve _ =>
    rw [get_of_error hresolve]
    simp only [Except.error.injEq, reduceCtorEq, false_iff]
    omega
  | sole x g p hsole _ => simp [hsole.get, hsole.count]

theorem get_eq_ambiguous_iff {n : Nat} :
    b.get name = .error (.ambiguous name n) ↔ n = b.count name ∧ 2 ≤ b.count name := by
  cases b.resolution name with
  | missing hcount hresolve _ => simp [get_of_error hresolve, hcount]
  | several hcount hresolve _ => simp [get_of_error hresolve, hcount, eq_comm]
  | sole x g p hsole _ => simp [hsole.get, hsole.count]

theorem get_of_single (h : b.count name = 1) :
    ∃ x g p, b.Sole name x g p ∧ b.get name = .ok p.value := by
  obtain ⟨x, g, p, hsole⟩ := exists_sole h
  exact ⟨x, g, p, hsole, hsole.get⟩

theorem set_of_get_error {e : PropertyError} (h : b.get name = .error e) (v : PropertyValue) :
    b.set name v = .error e := by
  rw [get] at h
  split at h
  · cases h
  · rename_i hresolve
    cases h
    exact set_of_unresolved hresolve v

theorem set_eq_typeMismatch_iff {v : PropertyValue} {expected found : PropertyKind} :
    b.set name v = .error (.typeMismatch name expected found) ↔
      ∃ x g p, b.Sole name x g p ∧ expected = p.kind ∧ found = v.kind ∧ expected ≠ found := by
  cases b.resolution name with
  | missing _ hresolve _ => simp [set_of_unresolved hresolve, not_sole_of_error hresolve]
  | several _ hresolve _ => simp [set_of_unresolved hresolve, not_sole_of_error hresolve]
  | sole x g p hsole _ =>
    constructor
    · intro h
      rw [hsole.set] at h
      split at h
      · cases h
      · rename_i hkind
        simp only [Except.error.injEq, PropertyError.typeMismatch.injEq, true_and] at h
        obtain ⟨rfl, rfl⟩ := h
        exact ⟨x, g, p, hsole, rfl, rfl, hkind⟩
    · rintro ⟨y, k, q, hother, rfl, rfl, hkind⟩
      rw [hother.set, if_neg hkind]

theorem set_ok_iff {v : PropertyValue} : (∃ owner b', b.set name v = .ok (owner, b')) ↔
    ∃ x g p, b.Sole name x g p ∧ p.kind = v.kind := by
  constructor
  · rintro ⟨owner, b', h⟩
    obtain ⟨x, g, p, hsole, hkind, -⟩ := sole_of_set h
    exact ⟨x, g, p, hsole, hkind⟩
  · rintro ⟨x, g, p, hsole, hkind⟩
    rw [hsole.set, if_pos hkind]
    exact ⟨_, _, rfl⟩

end

/-- **Access to a name is exact.** What a read or a write comes to is decided by the number of
properties that have the name over all registered graphs, of whatever kind. None: the name is not found.
Several: it is ambiguous, and the failure tells the number. One: a read answers with its value, and a
write succeeds just when the kind is right. A write fails as a read does or for the kind, and then the
blackboard is as it was; one that succeeds changes the one property and nothing else. Going through the
properties for a place and accessing the place comes to the same, and finds a property there. -/
theorem access_exact (b : Blackboard) (name : String) :
    (b.get name = .error (.notFound name) ↔ b.count name = 0) ∧
    (∀ n, b.get name = .error (.ambiguous name n) ↔ n = b.count name ∧ 2 ≤ b.count name) ∧
    (b.count name = 1 → ∃ x g p, b.Sole name x g p ∧ b.get name = .ok p.value) ∧
    b.readAt? name = some (b.get name) ∧
    ∀ v,
      (∀ e, b.get name = .error e → b.set name v = .error e) ∧
      (∀ expected found, b.set name v = .error (.typeMismatch name expected found) ↔
        ∃ x g p, b.Sole name x g p ∧ expected = p.kind ∧ found = v.kind ∧ expected ≠ found) ∧
      ((∃ owner b', b.set name v = .ok (owner, b')) ↔
        ∃ x g p, b.Sole name x g p ∧ p.kind = v.kind) ∧
      (b.writeAt? name v).map (fun r => (.written r.1, r.2)) = some (b.ask (.set name v)) ∧
      (∀ e, b.set name v = .error e → b.ask (.set name v) = (.written (.error e), b)) ∧
      ∀ owner b', b.set name v = .ok (owner, b') → b.Written name v owner b' := by
  refine ⟨get_eq_notFound_iff, fun n => get_eq_ambiguous_iff, get_of_single, b.readAt?_eq name,
    fun v => ⟨fun e he => set_of_get_error he v, fun expected found => set_eq_typeMismatch_iff,
      set_ok_iff, b.writeAt?_eq name v, fun e he => ?_, fun owner b' => written_of_set⟩⟩
  simp only [ask, he]

end Blackboard

/-- Pears, and whether they are ripe. -/
def Graph.orchard : Graph :=
  ⟨⟨20⟩, ⟨"start"⟩, .origin, [], [], [⟨⟨"a"⟩, "pears", .int 3⟩, ⟨⟨"b"⟩, "ripe", .bool false⟩]⟩

/-- Juice, and how ripe the pears have to be. -/
def Graph.press : Graph :=
  ⟨⟨21⟩, ⟨"start"⟩, .origin, [], [], [⟨⟨"c"⟩, "ripe", .int 2⟩, ⟨⟨"d"⟩, "juice", .string "none"⟩]⟩

namespace Blackboard

/-- A name that two graphs declare, a write of the wrong kind, and two writes that commute. -/
theorem access_exact_orchard :
    (get ⟨[.orchard, .press]⟩ "ripe" = .error (.ambiguous "ripe" 2)) ∧
      (ask ⟨[.orchard, .press]⟩ (.set "juice" (.int 1)) =
        (.written (.error (.typeMismatch "juice" .string .int)), ⟨[.orchard, .press]⟩)) ∧
      ∃ b b', set ⟨[.orchard, .press]⟩ "pears" (.int 4) = .ok (⟨20⟩, b) ∧
        b.set "juice" (.string "sweet") = .ok (⟨21⟩, b') ∧ b.get "pears" = .ok (.int 4) ∧
        ∃ c, set ⟨[.orchard, .press]⟩ "juice" (.string "sweet") = .ok (⟨21⟩, c) ∧
          c.set "pears" (.int 4) = .ok (⟨20⟩, b') := by
  obtain ⟨-, hseveral, -⟩ := access_exact ⟨[.orchard, .press]⟩ "ripe"
  obtain ⟨-, -, -, -, hjuice⟩ := access_exact ⟨[.orchard, .press]⟩ "juice"
  obtain ⟨-, -, -, -, hpears⟩ := access_exact ⟨[.orchard, .press]⟩ "pears"
  have hwritten := (hpears (.int 4)).2.2.2.2.2 _ _ rfl
  exact ⟨(hseveral 2).mpr ⟨rfl, by decide⟩, (hjuice (.int 1)).2.2.2.2.1 _ rfl, _, _, rfl, rfl,
    hwritten.read, hwritten.commutes "juice" (.string "sweet") ⟨21⟩ _ (by decide) rfl⟩

end Blackboard

end Dialogue
