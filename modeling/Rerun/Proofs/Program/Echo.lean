import Rerun.Proofs.Program.Transcript

/-!
One attempt that shows the values that calls of `input` get, and one that does not. The two runs of
the program are in the same state throughout, but for what was shown (`Echoes.unechoed`). What a run
writes and reads is told by a list of events (`Machine.Sees`), which is the same for both runs, so
that the second transcript is the first without the values of the `input` calls; what is read from
standard input itself is in neither.
-/

namespace Rerun

namespace Program

/-! ### Events -/

inductive Event where
  | wrote (text : String)
  /-- A call of `input` has got a value. -/
  | prompted (value : String)
  /-- A value was read from standard input itself. -/
  | read (value : String)

namespace Event

def value? : Event → Option String
  | .wrote _ => none
  | .prompted v | .read v => some v

def pieces (echo : Bool) : Event → List Piece
  | .wrote text => [.written text]
  | .prompted v => if echo then [.echoed v] else []
  | .read _ => []

theorem filter_pieces (echo : Bool) (e : Event) :
    (e.pieces echo).filter Piece.isWritten = e.pieces false := by
  cases e with
  | wrote text => rfl
  | prompted v => cases echo <;> rfl
  | read v => rfl

theorem filter_flatMap_pieces (echo : Bool) (es : List Event) :
    (es.flatMap (pieces echo)).filter Piece.isWritten = es.flatMap (pieces false) := by
  rw [List.filter_flatMap]
  simp only [filter_pieces]

end Event

def asked (prompt : String) : List Event := if prompt = "" then [] else [.wrote prompt]

def Machine.after (m : Machine) (es : List Event) : Machine :=
  let read := (es.filterMap Event.value?).length
  { m with
    shown := m.shown ++ es.flatMap (Event.pieces m.feed.echo)
    feed := { m.feed with left := m.feed.left.drop read, taken := m.feed.taken + read } }

/-- Some events lead from what the first machine has shown and read to what the second has. -/
structure Machine.Sees (m : Machine) (es : List Event) (n : Machine) : Prop where
  shown : n.shown = m.shown ++ es.flatMap (Event.pieces m.feed.echo)
  left : m.feed.left = es.filterMap Event.value? ++ n.feed.left
  taken : n.feed.taken = m.feed.taken + (es.filterMap Event.value?).length
  echo : n.feed.echo = m.feed.echo

namespace Machine.Sees

variable {m n k : Machine} {es es' : List Event}

theorem refl (m : Machine) : m.Sees [] m := ⟨(List.append_nil _).symm, rfl, rfl, rfl⟩

theorem of_same (hshown : n.shown = m.shown) (hfeed : n.feed = m.feed) : m.Sees [] n :=
  ⟨hshown.trans (List.append_nil _).symm, congrArg Feed.left hfeed.symm, congrArg Feed.taken hfeed,
    congrArg Feed.echo hfeed⟩

theorem trans (h : m.Sees es n) (h' : n.Sees es' k) : m.Sees (es ++ es') k where
  shown := by rw [h'.shown, h.shown, h.echo, List.flatMap_append, List.append_assoc]
  left := by rw [h.left, h'.left, List.filterMap_append, List.append_assoc]
  taken := by
    rw [h'.taken, h.taken, List.filterMap_append, List.length_append, Nat.add_assoc]
  echo := h'.echo.trans h.echo

/-- Events of which the values are next lead to the machine after them. -/
theorem after {rest : List String} (h : m.feed.left = es.filterMap Event.value? ++ rest) :
    m.Sees es (m.after es) where
  shown := rfl
  left := by
    rw [Machine.after, h, List.drop_left]
  taken := rfl
  echo := rfl

end Machine.Sees

/-! ### Reads -/

section

variable {m : Machine} {v : String} {vs : List String}

/-- A call of `input` that gets a value shows it if the attempt shows such values. -/
theorem ask_of_cons (hl : m.feed.left = v :: vs) (prompt : String) :
    Run.ask prompt m = (.ok v, m.after (asked prompt ++ [.prompted v])) := by
  have hawait (n : Machine) (hn : n.feed.left = v :: vs) :
      Run.await prompt n = (.ok v, n.after [.prompted v]) := by
    rw [Run.await_of_cons prompt hn]
    simp [Machine.after, Event.value?, Event.pieces, hn]
  rw [Run.ask_eq, asked]
  by_cases hprompt : prompt = ""
  · rw [if_neg (not_not_intro hprompt), if_pos hprompt, List.nil_append]
    exact hawait m hl
  · rw [if_pos hprompt, if_neg hprompt, Run.bind_apply]
    refine (hawait { m with shown := m.shown ++ [.written prompt] } hl).trans ?_
    simp [Machine.after, Event.value?, Event.pieces, List.filterMap_cons]

theorem readLine_of_cons (hl : m.feed.left = v :: vs) :
    Run.ofRead false Feed.readLine m = (.ok (v ++ "\n"), m.after [.read v]) := by
  rw [Run.readLine_of_cons hl]
  simp [Machine.after, Event.value?, Event.pieces, hl]

theorem readAll_of_ne_nil (hl : m.feed.left ≠ []) : Run.ofRead false Feed.readAll m =
    (.ok (Feed.linesOf m.feed.left), m.after (m.feed.left.map .read)) := by
  have hempty : m.feed.left.isEmpty = false := List.isEmpty_eq_false_iff.mpr hl
  have hvalues : (m.feed.left.map Event.read).filterMap Event.value? = m.feed.left := by
    rw [List.filterMap_map]
    exact List.filterMap_some
  have hpieces : (m.feed.left.map Event.read).flatMap (Event.pieces m.feed.echo) = [] := by
    simp [Event.pieces]
  simp [Run.ofRead, Feed.readAll, Feed.drain, Machine.after, hempty, hvalues, hpieces]

end

/-! ### The run that does not show values -/

/-- The machine of an attempt that does not show the values of `input` calls. -/
def Machine.unechoed (m : Machine) : Machine :=
  { m with feed := { m.feed with echo := false }, shown := m.shown.filter Piece.isWritten }

theorem Machine.after_unechoed (m : Machine) (es : List Event) :
    m.unechoed.after es = (m.after es).unechoed := by
  simp [after, unechoed, Event.filter_flatMap_pieces]

/-- A computation that does the same whether values are shown or not, and of which the events tell
what it shows and reads. -/
structure Echoes {α : Type} (x : Run α) : Prop where
  unechoed (m : Machine) : x m.unechoed = ((x m).1, (x m).2.unechoed)
  sees (m : Machine) : ∃ es, m.Sees es (x m).2

namespace Echoes

variable {α β : Type}

theorem of_same {x : Run α} (h : ∀ m : Machine, x m.unechoed = ((x m).1, (x m).2.unechoed))
    (hshown : ∀ m, (x m).2.shown = m.shown) (hfeed : ∀ m, (x m).2.feed = m.feed) : Echoes x :=
  ⟨h, fun m => ⟨[], .of_same (hshown m) (hfeed m)⟩⟩

theorem bind {x : Run α} {f : α → Run β} (hx : Echoes x) (hf : ∀ a, Echoes (f a)) :
    Echoes (x >>= f) where
  unechoed m := by
    rw [Run.bind_apply, Run.bind_apply, hx.unechoed m]
    rcases x m with ⟨s | a, n⟩
    · rfl
    · exact (hf a).unechoed n
  sees m := by
    obtain ⟨es, hes⟩ := hx.sees m
    rw [Run.bind_apply]
    rcases hr : x m with ⟨s | a, n⟩ <;> rw [hr] at hes
    · exact ⟨es, hes⟩
    · obtain ⟨es', hes'⟩ := (hf a).sees n
      exact ⟨es ++ es', hes.trans hes'⟩

theorem handle {body other : Run α} (cls : String) (hb : Echoes body) (ho : Echoes other) :
    Echoes (Run.handle body cls other) where
  unechoed m := by
    unfold Run.handle
    rw [hb.unechoed m]
    rcases body m with ⟨s | a, n⟩
    · dsimp only
      split
      · exact ho.unechoed n
      · rfl
    · rfl
  sees m := by
    obtain ⟨es, hes⟩ := hb.sees m
    unfold Run.handle
    rcases hr : body m with ⟨s | a, n⟩ <;> rw [hr] at hes <;> dsimp only
    · split
      · obtain ⟨es', hes'⟩ := ho.sees n
        exact ⟨es ++ es', hes.trans hes'⟩
      · exact ⟨es, hes⟩
    · exact ⟨es, hes⟩

theorem inFrame (frame : Frame) {x : Run α} (hx : Echoes x) : Echoes (Run.inFrame frame x) where
  unechoed m := by
    have h := hx.unechoed { m with frame }
    exact congrArg (fun r => (r.1, { r.2 with frame := m.frame })) h
  sees m := by
    obtain ⟨es, hes⟩ := hx.sees { m with frame }
    exact ⟨es, { hes with }⟩

theorem emit (text : String) : Echoes (Run.emit text) where
  unechoed m := by
    simp [Run.emit, Run.change, Machine.unechoed, Piece.isWritten, List.filter_cons]
  sees m := ⟨[.wrote text], rfl, rfl, rfl, rfl⟩

/-- A computation that takes values when there are any, and otherwise neither shows nor reads
anything and does the same whether values are shown or not. -/
theorem of_reads {x : Run α} (events : Machine → List Event)
    (hcons : ∀ m : Machine, m.feed.left ≠ [] → (∃ r, ∀ n : Machine, n.feed.left = m.feed.left →
      x n = (r, n.after (events m))) ∧ ∃ rest,
      m.feed.left = (events m).filterMap Event.value? ++ rest)
    (hnil : ∀ m : Machine, m.feed.left = [] → x m.unechoed = ((x m).1, (x m).2.unechoed) ∧
      (x m).2.shown = m.shown ∧ (x m).2.feed = m.feed) : Echoes x where
  unechoed m := by
    by_cases hl : m.feed.left = []
    · exact (hnil m hl).1
    · -- The events are told by the values that are left, and those are the same for both machines.
      obtain ⟨⟨r, hr⟩, -⟩ := hcons m hl
      rw [hr m rfl, hr m.unechoed rfl, m.after_unechoed]
  sees m := by
    by_cases hl : m.feed.left = []
    · obtain ⟨-, hshown, hfeed⟩ := hnil m hl
      exact ⟨[], .of_same hshown hfeed⟩
    · obtain ⟨⟨r, hr⟩, rest, hrest⟩ := hcons m hl
      rw [hr m rfl]
      exact ⟨events m, .after hrest⟩

theorem ask (prompt : String) : Echoes (Run.ask prompt) := by
  have hawait : Echoes (Run.await prompt) := by
    refine of_reads (fun m => (m.feed.left.take 1).map .prompted) (fun m hl => ?_) fun m hl => ?_
    · obtain ⟨v, vs, hcons⟩ := List.exists_cons_of_ne_nil hl
      refine ⟨⟨.ok v, fun n hn => ?_⟩, vs, ?_⟩
      · rw [Run.await_of_cons prompt (hn.trans hcons), hcons]
        simp [Machine.after, Event.value?, Event.pieces, hn, hcons]
      · rw [hcons]
        rfl
    · cases hb : m.feed.batch with
      | true =>
          rw [Run.await_of_ended prompt hl hb, Run.await_of_ended (m := m.unechoed) prompt hl hb]
          exact ⟨rfl, rfl, rfl⟩
      | false =>
          rw [Run.await_of_nil prompt hl hb, Run.await_of_nil (m := m.unechoed) prompt hl hb]
          exact ⟨rfl, rfl, rfl⟩
  rw [Run.ask_eq]
  split
  · exact (emit prompt).bind fun _ => hawait
  · exact hawait

theorem readLine : Echoes (Run.ofRead false Feed.readLine) := by
  refine of_reads (fun m => (m.feed.left.take 1).map .read) (fun m hl => ?_) fun m hl => ?_
  · obtain ⟨v, vs, hcons⟩ := List.exists_cons_of_ne_nil hl
    refine ⟨⟨.ok (v ++ "\n"), fun n hn => ?_⟩, vs, ?_⟩
    · rw [readLine_of_cons (hn.trans hcons), hcons]
      rfl
    · rw [hcons]
      rfl
  · have hl' : m.unechoed.feed.left = [] := hl
    cases hb : m.feed.batch with
    | true =>
        rw [Run.readLine_of_ended hl hb, Run.readLine_of_ended hl' hb]
        exact ⟨rfl, rfl, rfl⟩
    | false =>
        rw [Run.readLine_of_nil hl hb, Run.readLine_of_nil hl' hb]
        exact ⟨rfl, rfl, rfl⟩

theorem readAll : Echoes (Run.ofRead false Feed.readAll) := by
  refine of_reads (fun m => m.feed.left.map .read) (fun m hl => ?_) fun m hl => ?_
  · refine ⟨⟨.ok (Feed.linesOf m.feed.left), fun n hn => ?_⟩, [], ?_⟩
    · rw [readAll_of_ne_nil (hn ▸ hl), hn]
    · rw [List.filterMap_map, List.append_nil]
      exact List.filterMap_some.symm
  · have hl' : m.unechoed.feed.left = [] := hl
    cases hb : m.feed.batch with
    | true =>
        rw [Run.readAll_of_ended hl hb, Run.readAll_of_ended hl' hb]
        exact ⟨rfl, rfl, rfl⟩
    | false =>
        rw [Run.readAll_of_nil hl hb, Run.readAll_of_nil hl' hb]
        exact ⟨rfl, rfl, rfl⟩

theorem closed : Closed True (fun {α} => Echoes (α := α)) where
  pure _ := of_same (fun _ => rfl) (fun _ => rfl) fun _ => rfl
  bind := bind
  stop _ := of_same (fun _ => rfl) (fun _ => rfl) fun _ => rfl
  look hf := {
    unechoed := fun m => (hf m.names m.frame m.seed fun _ _ _ => trivial).unechoed m
    sees := fun m => (hf m.names m.frame m.seed fun _ _ _ => trivial).sees m }
  assign name v := by
    refine of_same (fun m => ?_) (fun m => ?_) fun m => ?_ <;> unfold assign Run.change <;>
      dsimp only [Machine.unechoed] <;> split <;> rfl
  define _ _ _ _ _ := of_same (fun _ => rfl) (fun _ => rfl) fun _ => rfl
  emit := emit
  emitError _ := of_same (fun _ => rfl) (fun _ => rfl) fun _ => rfl
  tick _ := of_same (fun _ => rfl) (fun _ => rfl) fun _ => rfl
  ask := ask
  readLine := readLine
  readAll _ := readAll
  handle := handle
  inFrame := inFrame

end Echoes

end Program

/-! ### Attempts -/

namespace Serving

open Program

/-- An answer with another text in the place of what was shown. -/
def Answer.showing (text : String) : Answer → Answer
  | .reply (.obj fields) => .reply (.obj (Assoc.put fields "stdout" (.str text)))
  | answer => answer

/-- What an attempt shows stands in its answer at one place, and counts for nothing else. -/
theorem runAnswer_showing (e : Ending Unit) {m n : Machine} (herrors : n.errors = m.errors)
    (htaken : n.feed.taken = m.feed.taken) :
    runAnswer e n = (runAnswer e m).showing (transcript n.shown) := by
  have hreply (status : String) (prompt error : Json) (m : Machine) :
      Answer.ofReply (.obj [("status", .str status), ("prompt", prompt), ("error", error),
        ("stdout", .str (transcript m.shown)), ("stderr", .str m.errors),
        ("consumed", .int m.feed.taken)]) = if prompt.hasNonFinite || error.hasNonFinite then
          .refused 500 else .reply (.obj [("status", .str status), ("prompt", prompt),
            ("error", error), ("stdout", .str (transcript m.shown)), ("stderr", .str m.errors),
            ("consumed", .int m.feed.taken)]) := by
    simp [Answer.ofReply, Json.hasNonFinite, Json.anyNonFiniteField]
  cases e with
  | hung | crashed | unreported => rfl
  | finished | suspended | failed | malformed =>
      rw [runAnswer, runAnswer, hreply, hreply, herrors, htaken]
      · split <;> rfl
      all_goals nofun

theorem runProgram_unechoed (code : String) (m : Machine) :
    runProgram code m.unechoed = ((runProgram code m).1, (runProgram code m).2.unechoed) := by
  unfold runProgram
  rcases Program.read code with line | ls
  · rfl
  · have h := (Echoes.closed.runLines 1 ls fun _ => trivial).unechoed m
    exact congrArg (fun r => (Ending.of () r.1, r.2)) h

theorem runProgram_sees (code : String) (m : Machine) : ∃ es, m.Sees es (runProgram code m).2 := by
  unfold runProgram
  rcases Program.read code with line | ls
  · exact ⟨[], .refl m⟩
  · exact (Echoes.closed.runLines 1 ls fun _ => trivial).sees m

/-- Showing values changes what is shown and nothing else. A call of `input` shows its prompt and
its value, and what is read from standard input itself is not shown. The same events lead through
two attempts of which one shows values and one does not, and they take the values that both read;
the two attempts are answered alike, but for what they show. -/
theorem attempt_unechoed :
    (∀ (m : Machine) (v : String) (vs : List String), m.feed.left = v :: vs →
      (∀ prompt, Run.ask prompt m = (.ok v, m.after (asked prompt ++ [.prompted v]))) ∧
      Run.ofRead false Feed.readLine m = (.ok (v ++ "\n"), m.after [.read v]) ∧
      Run.ofRead false Feed.readAll m =
        (.ok (Feed.linesOf (v :: vs)), m.after ((v :: vs).map .read))) ∧
    ∀ (seed : Option Int) (r : RunRequest), ∃ es : List Event,
      let on := attempt seed { r with echoInputs := true }
      let off := attempt seed { r with echoInputs := false }
      es.filterMap Event.value? = r.inputs.take on.2.feed.taken ∧
        on.2.shown = es.flatMap (Event.pieces true) ∧
        off.2.shown = es.flatMap (Event.pieces false) ∧
        runAnswer off.1 off.2 = (runAnswer on.1 on.2).showing (transcript off.2.shown) := by
  refine ⟨fun m v vs hl => ⟨ask_of_cons hl, readLine_of_cons hl, ?_⟩, fun seed r => ?_⟩
  · rw [readAll_of_ne_nil (hl ▸ List.cons_ne_nil v vs), hl]
  -- The run that shows values is followed, and the other one is its image without them.
  let m := machine .initial (.ofMode r.inputs r.mode true) seed
  obtain ⟨es, hes⟩ := runProgram_sees r.code m
  have hoff : attempt seed { r with echoInputs := false } =
      ((runProgram r.code m).1, (runProgram r.code m).2.unechoed) := runProgram_unechoed r.code m
  have hshown : (runProgram r.code m).2.shown = es.flatMap (Event.pieces true) := hes.shown
  have hread : r.inputs = es.filterMap Event.value? ++ (runProgram r.code m).2.feed.left := hes.left
  have htaken : (runProgram r.code m).2.feed.taken = (es.filterMap Event.value?).length :=
    hes.taken.trans (Nat.zero_add _)
  refine ⟨es, ?_, hshown, ?_, ?_⟩
  · have htake : (es.filterMap Event.value? ++ (runProgram r.code m).2.feed.left).take
        (es.filterMap Event.value?).length = es.filterMap Event.value? := List.take_left
    rw [← hread, ← htaken] at htake
    exact htake.symm
  · rw [hoff]
    exact (congrArg (List.filter Piece.isWritten) hshown).trans
      (Event.filter_flatMap_pieces true es)
  · rw [hoff]
    exact runAnswer_showing _ rfl rfl

/-- One value is read by `input`, and one from standard input. -/
theorem attempt_unechoed_reading :
    let r : RunRequest := {
      code := "[\"print\", \x7b\"input\": [\"Name: \"]\x7d]
[\"write\", \x7b\"readline\": true\x7d]"
      inputs := ["Ann", "Bob"] }
    let on := attempt none { r with echoInputs := true }
    let off := attempt none { r with echoInputs := false }
    Run.ask "Name: " (machine .initial (.ofMode r.inputs r.mode true) none) = (.ok "Ann",
      (machine .initial (.ofMode r.inputs r.mode true) none).after
        [.wrote "Name: ", .prompted "Ann"]) ∧
    transcript on.2.shown = "Name: Ann\nAnn\nBob\n" ∧
      transcript off.2.shown = "Name: Ann\nBob\n" ∧
      runAnswer off.1 off.2 = (runAnswer on.1 on.2).showing (transcript off.2.shown) := by
  intro r on off
  obtain ⟨hreads, hattempts⟩ := attempt_unechoed
  obtain ⟨es, -, -, -, hanswer⟩ := hattempts none r
  refine ⟨?_, by decide +kernel, by decide +kernel, hanswer⟩
  exact (hreads _ "Ann" ["Bob"] rfl).1 "Name: "

end Serving

end Rerun
