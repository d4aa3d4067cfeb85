import Dialogue.Player
import Dialogue.Proofs.Session.Resumption
import Dialogue.Proofs.Text.Typed

/-!
# From prompt to prompt

A dialogue that is played goes from prompt to prompt: a line is read, or the end of the input, and
something is printed (`Player.Exchange`). A line answers the prompt when it denotes a port that the
line which waits offers (`Stage.AnsweredBy`). Any other one is read in vain: it is rebuffed, and the
player stands as before. What can come of an exchange is said once (`Exchange.course`). So without the
lines that are read in vain (`Player.answers`) all other exchanges are made as they were
(`exchanges_answers`), and the end is the same (`feedAll_answers`).
-/

namespace Dialogue

namespace Stage

/-- What is typed answers the prompt: it denotes a port that the line which waits offers. -/
def AnsweredBy (st : Stage) (typed : String) : Prop :=
  ∃ port line, Text.Denotes typed.toList port ∧ st.presentation? = some line ∧
    line.offers port = true

theorem answeredBy_iff {st : Stage} {typed : String} : st.AnsweredBy typed ↔
    (Text.word32? (Text.trim typed.toList)).any (fun port =>
      st.presentation?.any (·.offers port)) = true := by
  simp only [AnsweredBy, ← Text.word32?_trim_eq_some_iff, Option.any_eq_true]
  constructor
  · rintro ⟨port, line, hport, hline, hoffers⟩
    exact ⟨port, hport, line, hline, hoffers⟩
  · rintro ⟨port, hport, line, hline, hoffers⟩
    exact ⟨port, line, hport, hline, hoffers⟩

instance (st : Stage) (typed : String) : Decidable (st.AnsweredBy typed) :=
  decidable_of_iff _ answeredBy_iff.symm

end Stage

namespace Player

/-! ### Exchanges -/

/-- A stage that waits at a prompt, and the line that is read there, or the end of the input. -/
structure Exchange where
  stage : Stage
  typed : Option String

namespace Exchange

def printed (x : Exchange) : List Output := ((waiting x.stage).feed x.typed).1

def after (x : Exchange) : Player := ((waiting x.stage).feed x.typed).2

/-- A line is read that does not answer the prompt. -/
def InVain (x : Exchange) : Prop := ∃ typed ∈ x.typed, ¬ x.stage.AnsweredBy typed

instance (x : Exchange) : Decidable x.InVain :=
  inferInstanceAs (Decidable (∃ typed ∈ x.typed, ¬ x.stage.AnsweredBy typed))

end Exchange

/-- The exchanges that a player makes over typed lines and the end of the input after them. -/
def exchanges : Player → List String → List Exchange
  | finished _ _, _ => []
  | waiting st, [] => [⟨st, none⟩]
  | waiting st, typed :: lines =>
    ⟨st, some typed⟩ :: exchanges (Exchange.after ⟨st, some typed⟩) lines

/-- The lines without those that are read in vain. What is not read any more stays. -/
def answers : Player → List String → List String
  | finished _ _, lines => lines
  | waiting _, [] => []
  | waiting st, typed :: lines =>
    let rest := answers (Exchange.after ⟨st, some typed⟩) lines
    if st.AnsweredBy typed then typed :: rest else rest

/-- Induction from prompt to prompt, on to the end of the dialogue or of the input. -/
theorem prompt_induction {P : Player → List String → Prop}
    (ended : ∀ st success lines, P (finished st success) lines) (stop : ∀ st, P (waiting st) [])
    (read : ∀ st typed lines, P (Exchange.after ⟨st, some typed⟩) lines →
      P (waiting st) (typed :: lines))
    (p : Player) (lines : List String) : P p lines := by
  induction lines generalizing p with
  | nil =>
    cases p with
    | finished st success => exact ended st success []
    | waiting st => exact stop st
  | cons typed lines ih =>
    cases p with
    | finished st success => exact ended st success (typed :: lines)
    | waiting st => exact read st typed lines (ih _)

theorem feedAll_finished (st : Stage) (success : Bool) (lines : List String) :
    (finished st success).feedAll lines = ([], finished st success) := by
  induction lines with
  | nil => rfl
  | cons typed lines ih =>
    show ([] ++ ((finished st success).feedAll lines).1, ((finished st success).feedAll lines).2) = _
    rw [ih]
    rfl

theorem feedAll_waiting (st : Stage) (typed : String) (lines : List String) :
    (waiting st).feedAll (typed :: lines) =
      (Exchange.printed ⟨st, some typed⟩ ++ ((Exchange.after ⟨st, some typed⟩).feedAll lines).1,
        ((Exchange.after ⟨st, some typed⟩).feedAll lines).2) :=
  rfl

theorem printed_feedAll (p : Player) (lines : List String) :
    (p.feedAll lines).1 = (p.exchanges lines).flatMap Exchange.printed := by
  induction p, lines using prompt_induction with
  | ended st success lines =>
    rw [feedAll_finished, exchanges]
    rfl
  | stop st =>
    rw [exchanges, List.flatMap_singleton]
    rfl
  | read st typed lines ih => rw [feedAll_waiting, exchanges, List.flatMap_cons, ih]

theorem length_exchanges_le (p : Player) (lines : List String) :
    (p.exchanges lines).length ≤ lines.length + 1 := by
  induction p, lines using prompt_induction with
  | ended st success lines => simp [exchanges]
  | stop st => simp [exchanges]
  | read st typed lines ih =>
    rw [exchanges, List.length_cons, List.length_cons]
    omega

theorem feedAll_over (p : Player) (lines : List String) :
    ∃ st success, (p.feedAll lines).2 = finished st success := by
  induction p, lines using prompt_induction with
  | ended st success lines => exact ⟨st, success, by rw [feedAll_finished]⟩
  | stop st => exact ⟨st.stop, true, rfl⟩
  | read st typed lines ih => exact ih

theorem forall_exchanges {P : Player → Prop}
    (hstep : ∀ x : Exchange, P (waiting x.stage) → P x.after) (p : Player) (lines : List String) :
    P p → (∀ x ∈ p.exchanges lines, P (waiting x.stage)) ∧ P (p.feedAll lines).2 := by
  induction p, lines using prompt_induction with
  | ended st success lines =>
    intro h
    rw [feedAll_finished, exchanges]
    exact ⟨fun x hx => absurd hx List.not_mem_nil, h⟩
  | stop st =>
    intro h
    refine ⟨fun x hx => ?_, hstep ⟨st, none⟩ h⟩
    rw [List.mem_singleton.mp hx]
    exact h
  | read st typed lines ih =>
    intro h
    obtain ⟨hrest, hend⟩ := ih (hstep ⟨st, some typed⟩ h)
    refine ⟨fun x hx => ?_, hend⟩
    rw [exchanges] at hx
    rcases List.mem_cons.mp hx with rfl | hx
    · exact h
    · exact hrest x hx

/-! ### What comes of an exchange -/

/-- How a player stands after an answer of its stage. -/
def standing : Except SessionError SessionState × Stage → Player
  | (.ok .awaitingInput, st) => waiting st
  | (.ok _, st) => finished st true
  | (.error _, st) => finished st false

theorem after_snd (node : Guid) (before : Stage)
    (answer : Except SessionError SessionState × Stage) :
    (after node before answer).2 = standing answer := by
  obtain ⟨r, st⟩ := answer
  cases r with
  | error e => rfl
  | ok state => cases state <;> rfl

theorem printed_self (node : Guid) (st : Stage) : printed node st st = [] := by
  simp [printed, Entry.outputs]

/-- What is printed for a line in vain: what is wrong with it, and the prompt again. Nothing of the
dialogue is shown. -/
inductive IsRebuff : List Output → Prop
  | noNumber : IsRebuff [.shown "enter an option number\n", prompt]
  | noOption (node : Guid) (port : PortIndex) : IsRebuff [.logged "WARN"
      "selected port was not offered" [("node", node.text), ("port", toString port.toNat)], prompt]

/-- A session waits at the prompt of a player, and none runs when its dialogue is over. -/
def Tidy : Player → Prop
  | waiting st => st.Settled ∧ st.isRunning = true
  | finished st _ => st.session = none

namespace Exchange

/-- What can come of an exchange. -/
inductive Course (x : Exchange) : Prop
  /-- A line in vain leaves the player where it stands. -/
  | rebuffed : x.InVain → IsRebuff x.printed → x.after = waiting x.stage → Course x
  /-- An answer is a choice that the session takes. -/
  | answered (typed : String) (port : PortIndex) (r : Except SessionError SessionState) :
      x.typed = some typed → Text.Denotes typed.toList port → ¬ x.InVain →
      Turn.reply ⟨x.stage, .select port⟩ = .session r → Turn.Taken ⟨x.stage, .select port⟩ r →
      x.after = standing (r, Turn.after ⟨x.stage, .select port⟩) → Course x
  /-- The end of the input stops the session. -/
  | stopped : x.typed = none → x.after = finished x.stage.stop true → Course x

theorem inVain_iff {st : Stage} {typed : String} :
    InVain ⟨st, some typed⟩ ↔ ¬ st.AnsweredBy typed := by
  simp [InVain]

theorem rebuffed_of_not_answered {st : Stage} (hst : st.Settled) {line : Presentation}
    (hline : st.presentation? = some line) {typed : String} (h : ¬ st.AnsweredBy typed) :
    IsRebuff (printed ⟨st, some typed⟩) ∧ after ⟨st, some typed⟩ = waiting st := by
  cases hword : Text.word32? (Text.trim typed.toList) with
  | none =>
    simp only [printed, after, feed, hword, and_true]
    exact .noNumber
  | some port =>
    have hoffers : line.offers port = false := by
      rw [Stage.answeredBy_iff, hword, hline] at h
      simpa using h
    have hselect := (Stage.select_cases hst hline port).2 hoffers
    have hwarns : unoffered st port = [.logged "WARN" "selected port was not offered"
        [("node", line.node.text), ("port", toString port.toNat)]] := by
      simp [unoffered, hline, hoffers]
    simp only [printed, after, feed, hword, hselect, hwarns, Player.after, printed_self, and_true]
    exact .noOption line.node port

/-- **What comes of an exchange**: a line in vain is rebuffed, an answer is taken, and the end of the
input stops the session. -/
theorem course {x : Exchange} (hx : (waiting x.stage).Tidy) : x.Course := by
  obtain ⟨hst, hrunning⟩ := hx
  obtain ⟨-, -, -, line, -, -, -, -, hline, -⟩ := (hst.waiting hrunning).line
  obtain ⟨st, typed | typed⟩ := x
  · exact .stopped rfl rfl
  · by_cases h : st.AnsweredBy typed
    · obtain ⟨port, line', hport, hline', hoffers⟩ := h
      obtain rfl : line = line' := Option.some.inj (hline.symm.trans hline')
      obtain ⟨r, hreply, htaken, -⟩ := (Stage.select_cases hst hline port).1 hoffers
      have hanswers : ¬ InVain ⟨st, some typed⟩ := fun hvain =>
        inVain_iff.mp hvain ⟨port, line, hport, hline, hoffers⟩
      refine .answered typed port r rfl hport hanswers hreply htaken ?_
      have hr : (st.select port).1 = r := Reply.session.inj hreply
      simp only [after, feed, Text.word32?_trim_eq_some_iff.mpr hport, after_snd]
      rw [← hr]
      rfl
    · obtain ⟨hrebuff, hafter⟩ := rebuffed_of_not_answered hst hline h
      exact .rebuffed (inVain_iff.mpr h) hrebuff hafter

theorem rebuffed {x : Exchange} (hx : (waiting x.stage).Tidy) (h : x.InVain) :
    IsRebuff x.printed ∧ x.after = waiting x.stage := by
  cases course hx with
  | rebuffed _ hrebuff hafter => exact ⟨hrebuff, hafter⟩
  | answered _ _ _ _ _ hanswers _ _ _ => exact absurd h hanswers
  | stopped hend _ =>
    obtain ⟨typed, htyped, -⟩ := h
    rw [hend] at htyped
    cases htyped

theorem tidy_standing {t : Turn} {r : Except SessionError SessionState} (hst : t.before.Settled)
    (h : t.Taken r) : (standing (r, t.after)).Tidy := by
  cases h with
  | waits line _ hline _ =>
    obtain ⟨s, hs, -⟩ := Option.bind_eq_some_iff.mp hline
    exact ⟨t.settled_after hst, Stage.isRunning_of_some hs⟩
  | ends hclosed => exact hclosed
  | fails e _ _ hclosed => exact hclosed

theorem tidy_after {x : Exchange} (hx : (waiting x.stage).Tidy) : x.after.Tidy := by
  cases course hx with
  | rebuffed _ _ hafter => rwa [hafter]
  | answered _ _ _ _ _ _ _ htaken hafter =>
    rw [hafter]
    exact tidy_standing hx.1 htaken
  | stopped _ hafter =>
    rw [hafter]
    obtain ⟨s, hs⟩ := Stage.session_of_running hx.2
    show x.stage.stop.session = none
    rw [Stage.stop, hs]
    exact (Stage.close_frame _ s).1

end Exchange

/-! ### Lines in vain -/

theorem answers_of_answered {st : Stage} {typed : String} (h : st.AnsweredBy typed)
    (lines : List String) : (waiting st).answers (typed :: lines) =
      typed :: (Exchange.after ⟨st, some typed⟩).answers lines :=
  if_pos h

theorem answers_of_vain {st : Stage} (hst : (waiting st).Tidy) {typed : String}
    (h : ¬ st.AnsweredBy typed) (lines : List String) :
    Exchange.after ⟨st, some typed⟩ = waiting st ∧
      (waiting st).answers (typed :: lines) = (waiting st).answers lines := by
  have hafter := (Exchange.rebuffed (x := ⟨st, some typed⟩) hst (Exchange.inVain_iff.mpr h)).2
  refine ⟨hafter, ?_⟩
  rw [answers, if_neg h, hafter]

/-- **Without the lines in vain all other exchanges are made as they were.** -/
theorem exchanges_answers {p : Player} (hp : p.Tidy) (lines : List String) :
    p.exchanges (p.answers lines) = (p.exchanges lines).filter fun x => ¬ x.InVain := by
  induction p, lines using prompt_induction with
  | ended st success lines => simp [answers, exchanges]
  | stop st => simp [answers, exchanges, Exchange.InVain]
  | read st typed lines ih =>
    by_cases h : st.AnsweredBy typed
    · have hrest := ih (Exchange.tidy_after (x := ⟨st, some typed⟩) hp)
      have hkept : ¬ Exchange.InVain ⟨st, some typed⟩ := fun hvain => Exchange.inVain_iff.mp hvain h
      rw [answers_of_answered h, exchanges, exchanges, hrest,
        List.filter_cons_of_pos (by simpa using hkept)]
    · obtain ⟨hafter, hanswers⟩ := answers_of_vain hp h lines
      have hvain : Exchange.InVain ⟨st, some typed⟩ := Exchange.inVain_iff.mpr h
      rw [hafter] at ih
      rw [hanswers, ih hp, exchanges, hafter, List.filter_cons_of_neg (by simpa using hvain)]

theorem feedAll_answers {p : Player} (hp : p.Tidy) (lines : List String) :
    (p.feedAll (p.answers lines)).2 = (p.feedAll lines).2 := by
  induction p, lines using prompt_induction with
  | ended st success lines => rw [answers]
  | stop st => rfl
  | read st typed lines ih =>
    by_cases h : st.AnsweredBy typed
    · rw [answers_of_answered h, feedAll_waiting, feedAll_waiting]
      exact ih (Exchange.tidy_after (x := ⟨st, some typed⟩) hp)
    · obtain ⟨hafter, hanswers⟩ := answers_of_vain hp h lines
      rw [hafter] at ih
      rw [hanswers, feedAll_waiting, hafter]
      exact ih hp

end Player

end Dialogue
