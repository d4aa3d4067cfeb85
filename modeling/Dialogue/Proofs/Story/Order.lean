import Dialogue.Proofs.Story.Ledger
import Mathlib.Data.List.Perm.Basic

/-!
# The order of registration

A name is resolved over all graphs and an id finds at most one graph, so the order in which graphs
stand on a blackboard is not seen: boards with the same graphs answer every request alike and still
hold the same graphs afterwards (`ask_perm`). Ids stay distinct through all requests. So taking a
graph off and registering it again, which moves it to the end, makes no difference later on
(`registration_order_unseen`).
-/

namespace Dialogue

namespace Blackboard

/-! ### Requests -/

/-- Something to do with a blackboard. -/
inductive Request where
  | get (name : String)
  | getInt (name : String)
  | getString (name : String)
  | getBool (name : String)
  | set (name : String) (value : PropertyValue)
  | register (graph : Graph)
  | unregister (id : GraphId)

/-- What a request is answered with. -/
inductive Answer where
  | value (result : Except PropertyError PropertyValue)
  | int (result : Except PropertyError Int32)
  | string (result : Except PropertyError String)
  | bool (result : Except PropertyError Bool)
  /-- The owner of the property that was written. -/
  | written (result : Except PropertyError GraphId)
  | registered (id : GraphId)
  | unregistered (graph : Option Graph)

/-- The answer to a request, and the blackboard after it. A failed write changes nothing. -/
def ask (b : Blackboard) : Request → Answer × Blackboard
  | .get name => (.value (b.get name), b)
  | .getInt name => (.int (b.getInt name), b)
  | .getString name => (.string (b.getString name), b)
  | .getBool name => (.bool (b.getBool name), b)
  | .set name v =>
    match b.set name v with
    | .ok (owner, b') => (.written (.ok owner), b')
    | .error e => (.written (.error e), b)
  | .register g => (.registered g.id, b.register g)
  | .unregister id => (.unregistered (b.unregister id).1, (b.unregister id).2)

/-- The answers to requests made one after the other, and the blackboard in the end. -/
def askAll (b : Blackboard) : List Request → List Answer × Blackboard
  | [] => ([], b)
  | r :: rs => ((b.ask r).1 :: ((b.ask r).2.askAll rs).1, ((b.ask r).2.askAll rs).2)

/-! ### One request -/

theorem Distinct.ask {b : Blackboard} (hb : b.Distinct) (r : Request) : (b.ask r).2.Distinct := by
  cases r with
  | set name v =>
    cases hset : b.set name v with
    | error e =>
      simp only [Blackboard.ask, hset]
      exact hb
    | ok x =>
      simp only [Blackboard.ask, hset]
      exact hb.of_outline (outline_of_set hset)
  | register g => exact hb.register g
  | unregister id => exact hb.unregister id
  | _ => exact hb

section

variable {b b' : Blackboard}

theorem Distinct.perm (hb : b.Distinct) (h : b.graphs.Perm b'.graphs) : b'.Distinct :=
  (h.map Graph.id).nodup_iff.mp hb

theorem contains_perm (h : b.graphs.Perm b'.graphs) (id : GraphId) :
    b.contains id = b'.contains id :=
  h.any_eq

theorem graph?_perm (hb : b.Distinct) (h : b.graphs.Perm b'.graphs) (id : GraphId) :
    b.graph? id = b'.graph? id := by
  cases hg : b.graph? id with
  | some g =>
    obtain rfl := id_of_graph? hg
    exact ((hb.perm h).graph?_of_mem (h.mem_iff.mp (mem_of_graph? hg))).symm
  | none =>
    symm
    rw [graph?, List.find?_eq_none] at hg ⊢
    exact fun g hmem => hg g (h.mem_iff.mpr hmem)

theorem resolve_perm (h : b.graphs.Perm b'.graphs) (name : String) :
    b.resolve name = b'.resolve name := by
  have hnamed : (b.named name).Perm (b'.named name) := h.flatMap_right _
  unfold resolve
  generalize b.named name = xs at hnamed
  generalize b'.named name = ys at hnamed
  match xs, ys, hnamed with
  | [], ys, hnamed => rw [hnamed.symm.eq_nil]
  | [x], ys, hnamed => rw [List.perm_singleton.mp hnamed.symm]
  | x :: x' :: xs, [], hnamed => exact absurd hnamed.length_eq (by simp)
  | x :: x' :: xs, [y], hnamed => exact absurd hnamed.length_eq (by simp)
  | x :: x' :: xs, y :: y' :: ys, hnamed =>
    show Except.error (PropertyError.ambiguous name (x :: x' :: xs).length) = _
    rw [hnamed.length_eq]

theorem get_perm (h : b.graphs.Perm b'.graphs) (name : String) : b.get name = b'.get name := by
  rw [get, get, resolve_perm h]

theorem set_perm (h : b.graphs.Perm b'.graphs) (name : String) (v : PropertyValue) :
    (∃ e, b.set name v = .error e ∧ b'.set name v = .error e) ∨
      ∃ owner c c', b.set name v = .ok (owner, c) ∧ b'.set name v = .ok (owner, c') ∧
        c.graphs.Perm c'.graphs := by
  have hresolve := resolve_perm h name
  cases hx : b.resolve name with
  | error e =>
    refine Or.inl ⟨e, ?_, ?_⟩
    · simp only [set, hx]
    · simp only [set, ← hresolve, hx]
  | ok x =>
    by_cases hkind : x.2.kind = v.kind
    · refine Or.inr ⟨x.1, _, _, ?_, ?_, h.map fun g => g.setNamed name v⟩
      · simp only [set, hx, if_pos hkind]
      · simp only [set, ← hresolve, hx, if_pos hkind]
    · refine Or.inl ⟨.typeMismatch name x.2.kind v.kind, ?_, ?_⟩
      · simp only [set, hx, if_neg hkind]
      · simp only [set, ← hresolve, hx, if_neg hkind]

theorem register_perm (h : b.graphs.Perm b'.graphs) (g : Graph) :
    (b.register g).graphs.Perm (b'.register g).graphs := by
  unfold register
  rw [contains_perm h]
  split
  · exact h
  · exact h.append_right [g]

theorem unregister_perm (hb : b.Distinct) (h : b.graphs.Perm b'.graphs) (id : GraphId) :
    (b.unregister id).1 = (b'.unregister id).1 ∧
      (b.unregister id).2.graphs.Perm (b'.unregister id).2.graphs := by
  unfold unregister
  rw [← graph?_perm hb h]
  cases b.graph? id with
  | none => exact ⟨rfl, h⟩
  | some g =>
    refine ⟨rfl, List.Perm.eraseP _ ?_ h⟩
    refine (List.pairwise_map.mp hb).imp fun hne hx hy => hne ?_
    rw [of_decide_eq_true hx, of_decide_eq_true hy]

/-- **Boards with the same graphs answer a request alike** and still have the same graphs. -/
theorem ask_perm (hb : b.Distinct) (h : b.graphs.Perm b'.graphs) (r : Request) :
    (b.ask r).1 = (b'.ask r).1 ∧ (b.ask r).2.graphs.Perm (b'.ask r).2.graphs := by
  cases r with
  | get name => exact ⟨congrArg Answer.value (get_perm h name), h⟩
  | getInt name =>
    refine ⟨congrArg Answer.int ?_, h⟩
    rw [getInt, getInt, get_perm h]
  | getString name =>
    refine ⟨congrArg Answer.string ?_, h⟩
    rw [getString, getString, get_perm h]
  | getBool name =>
    refine ⟨congrArg Answer.bool ?_, h⟩
    rw [getBool, getBool, get_perm h]
  | set name v =>
    rcases set_perm h name v with ⟨e, hset, hset'⟩ | ⟨owner, c, c', hset, hset', hperm⟩
    · simp only [ask, hset, hset']
      exact ⟨trivial, h⟩
    · simp only [ask, hset, hset']
      exact ⟨trivial, hperm⟩
  | register g => exact ⟨rfl, register_perm h g⟩
  | unregister id =>
    obtain ⟨hfst, hsnd⟩ := unregister_perm hb h id
    exact ⟨congrArg Answer.unregistered hfst, hsnd⟩

end

/-! ### Many requests -/

theorem Distinct.askAll (rs : List Request) {b : Blackboard} (hb : b.Distinct) :
    (b.askAll rs).2.Distinct := by
  induction rs generalizing b with
  | nil => exact hb
  | cons r rs ih => exact ih (hb.ask r)

theorem askAll_perm (rs : List Request) {b b' : Blackboard} (hb : b.Distinct)
    (h : b.graphs.Perm b'.graphs) :
    (b.askAll rs).1 = (b'.askAll rs).1 ∧ (b.askAll rs).2.graphs.Perm (b'.askAll rs).2.graphs := by
  induction rs generalizing b b' with
  | nil => exact ⟨rfl, h⟩
  | cons r rs ih =>
    obtain ⟨hanswer, hgraphs⟩ := ask_perm hb h r
    obtain ⟨hanswers, hperm⟩ := ih (hb.ask r) hgraphs
    exact ⟨List.cons_eq_cons.mpr ⟨hanswer, hanswers⟩, hperm⟩

theorem register_unregister_perm {b : Blackboard} (hb : b.Distinct) {id : GraphId} {g : Graph}
    (h : (b.unregister id).1 = some g) :
    b.graphs.Perm ((b.unregister id).2.register g).graphs := by
  unfold unregister at h ⊢
  cases hg : b.graph? id with
  | none => simp [hg] at h
  | some x =>
    simp only [hg, Option.some.injEq] at h ⊢
    subst h
    obtain rfl := id_of_graph? hg
    obtain ⟨y, before, after, -, hy, hgraphs, herase⟩ :=
      List.exists_of_eraseP (p := fun y => y.id = x.id) (mem_of_graph? hg) (by simp)
    obtain rfl : y = x := by
      refine List.inj_on_of_nodup_map hb ?_ (mem_of_graph? hg) (of_decide_eq_true hy)
      rw [hgraphs]
      exact List.mem_append_right _ List.mem_cons_self
    have habsent : contains ⟨before ++ after⟩ y.id = false := by
      rw [Distinct, hgraphs, List.map_append, List.map_cons, List.nodup_middle,
        ← List.map_append] at hb
      exact Bool.eq_false_iff.mpr (mt contains_iff.mp (List.nodup_cons.mp hb).1)
    rw [herase, register, habsent, hgraphs]
    exact List.perm_middle.trans (List.perm_append_singleton y _).symm

theorem unregister_register {b : Blackboard} {g : Graph} (h : b.contains g.id = false) :
    (b.register g).unregister g.id = (some g, b) := by
  have habsent : ∀ x ∈ b.graphs, ¬ decide (x.id = g.id) = true := by
    simpa [contains] using h
  have hgraph := graph?_register_new h
  rw [unregister, hgraph]
  rw [register, h]
  simp [List.eraseP_append_right _ habsent]

/-- **The order of registration is not seen.** Boards with the same graphs in different orders answer
every sequence of requests alike and end up with the same graphs. Every board that comes of requests
has distinct ids; taking a graph off it and registering it again changes no later answer, and a new
graph that is taken off again leaves the board exactly as it was. -/
theorem registration_order_unseen :
    (∀ b b' : Blackboard, b.Distinct → b.graphs.Perm b'.graphs → ∀ rs,
      (b.askAll rs).1 = (b'.askAll rs).1 ∧
        (b.askAll rs).2.graphs.Perm (b'.askAll rs).2.graphs) ∧
    (∀ rs, (empty.askAll rs).2.Distinct) ∧
    (∀ b : Blackboard, b.Distinct → ∀ id g, (b.unregister id).1 = some g → ∀ rs,
      (((b.unregister id).2.register g).askAll rs).1 = (b.askAll rs).1 ∧
        (((b.unregister id).2.register g).askAll rs).2.graphs.Perm (b.askAll rs).2.graphs) ∧
    ∀ (b : Blackboard) (g : Graph), b.contains g.id = false →
      (b.register g).unregister g.id = (some g, b) := by
  refine ⟨fun b b' hb h rs => askAll_perm rs hb h, fun rs => ?_, fun b hb id g h rs => ?_,
    fun b g h => unregister_register h⟩
  · exact Distinct.askAll rs List.nodup_nil
  · obtain ⟨hanswers, hgraphs⟩ := askAll_perm rs hb (register_unregister_perm hb h)
    exact ⟨hanswers.symm, hgraphs.symm⟩

end Blackboard

/-- A price that is declared twice, and a name that the fair declares as well. -/
def Graph.market : Graph :=
  ⟨⟨16⟩, ⟨"start"⟩, .origin, [], [], [⟨⟨"a"⟩, "price", .int 3⟩, ⟨⟨"b"⟩, "price", .string "dear"⟩,
    ⟨⟨"c"⟩, "open", .bool true⟩]⟩

def Graph.fair : Graph :=
  ⟨⟨17⟩, ⟨"start"⟩, .origin, [], [], [⟨⟨"d"⟩, "open", .int 1⟩, ⟨⟨"e"⟩, "rides", .int 5⟩]⟩

namespace Blackboard

/-- Reads and writes while the market is there, while it is away, and when it is back. -/
def Request.dealings : List Request :=
  [.get "price", .getInt "open", .set "rides" (.int 6), .unregister ⟨16⟩, .getInt "open",
    .register .market, .getInt "rides", .getInt "open"]

/-- The market and the fair in either order give the same answers, and so do they when the market has
been away. -/
theorem registration_order_unseen_market :
    Distinct ⟨[.market, .fair]⟩ ∧ [Graph.market, .fair].Perm [.fair, .market] ∧
      (askAll ⟨[.fair, .market]⟩ Request.dealings).1 =
        [.value (.error (.ambiguous "price" 2)), .int (.error (.ambiguous "open" 2)),
          .written (.ok ⟨17⟩), .unregistered (some .market), .int (.ok 1), .registered ⟨16⟩,
          .int (.ok 6), .int (.error (.ambiguous "open" 2))] ∧
      (unregister ⟨[.market, .fair]⟩ ⟨16⟩).1 = some .market ∧
      (askAll ((unregister ⟨[.market, .fair]⟩ ⟨16⟩).2.register .market) Request.dealings).1 =
        (askAll ⟨[.market, .fair]⟩ Request.dealings).1 := by
  have hdistinct : Distinct ⟨[.market, .fair]⟩ := by
    unfold Distinct
    decide
  have hperm : [Graph.market, .fair].Perm [.fair, .market] := .swap _ _ _
  have haway : (unregister ⟨[.market, .fair]⟩ ⟨16⟩).1 = some .market := rfl
  obtain ⟨hsame, -, hback, -⟩ := registration_order_unseen
  refine ⟨hdistinct, hperm, ?_, haway, (hback _ hdistinct ⟨16⟩ .market haway _).1⟩
  rw [← (hsame _ _ hdistinct hperm _).1]
  rfl

end Blackboard

end Dialogue
