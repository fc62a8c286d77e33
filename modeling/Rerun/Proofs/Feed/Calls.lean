import Rerun.Command
import Rerun.Feed

/-!
What reading from a feed does, call after call. There are six ways to read and one cursor, and any
mix of them moves the cursor forward over the values: a call that completes delivers the values
between the old cursor and the new one, and a call that stops for a value delivers none.
-/

namespace Rerun.Feed

/-- A call that reads values. The first takes a value as it is, the second is the prompt of a
program, and the others read from the standard input. -/
inductive Call where
  | take
  | input (prompt : String)
  | readLine
  | readAll
  | readLines
  /-- One step of an iteration over the lines. -/
  | nextLine
  deriving DecidableEq

inductive Given where
  /-- There was no value, or no further line. -/
  | nothing
  | value (v : String)
  | text (s : String)
  | lines (ls : List String)
  deriving DecidableEq

/-- What was given has these values in it, in this order: a text has each of them followed by a
newline, and so has every line. -/
def Given.Delivers : Given → List String → Prop
  | .nothing, values => values = []
  | .value v, values => values = [v]
  | .text s, values => s = linesOf values
  | .lines ls, values => ls = values.map (· ++ "\n")

namespace Call

/-- A step of an iteration over the lines ends the iteration at an empty line. -/
def stepOf (line : String) : Given := if line = "" then .nothing else .text line

def on : Call → Feed → Except Dry Given × Feed
  | take, f => (.ok (f.take.1.elim .nothing .value), f.take.2)
  | input prompt, f => ((f.ask prompt).1.map .value, (f.ask prompt).2)
  | readLine, f => (f.readLine.1.map .text, f.readLine.2)
  | readAll, f => (f.readAll.1.map .text, f.readAll.2)
  | readLines, f => (f.readLines.1.map .lines, f.readLines.2)
  | nextLine, f => (f.readLine.1.map stepOf, f.readLine.2)

def prompt : Call → String
  | input prompt => prompt
  | _ => ""

def ReadsOne (c : Call) : Prop := c ≠ .readAll ∧ c ≠ .readLines

/-- What a call that reads one value gives for it. -/
def given (v : String) : Call → Given
  | take | input _ => .value v
  | _ => .text (v ++ "\n")

/-- What a call gives at the end of the input, when nobody can give further values. -/
def ending : Call → Except Dry Given
  | take | nextLine => .ok .nothing
  | input _ => .error .ended
  | readLine | readAll => .ok (.text "")
  | readLines => .ok (.lines [])

end Call

variable {f : Feed} {v : String} {vs : List String} {c : Call}

theorem linesOf_cons (v : String) (vs : List String) :
    linesOf (v :: vs) = v ++ "\n" ++ linesOf vs := by
  rw [linesOf, List.map_cons, String.join_cons]
  rfl

theorem stepOf_line (v : String) : Call.stepOf (v ++ "\n") = .text (v ++ "\n") := by
  refine if_neg fun h => ?_
  simpa using congrArg String.toList h

theorem delivers_given (hone : c.ReadsOne) (v : String) : (c.given v).Delivers [v] := by
  have hline : v ++ "\n" = linesOf [v] := by simp [linesOf, String.join]
  cases c with
  | take | input => rfl
  | readLine | nextLine => exact hline
  | readAll => exact absurd rfl hone.1
  | readLines => exact absurd rfl hone.2

/-! ### One call -/

theorem drain_nil (h : f.left = []) : f.drain = ([], f) := by
  obtain ⟨left, taken, batch, echo⟩ := f
  obtain rfl : left = [] := h
  rfl

/-- What a call gives when no value is left: unless it only takes what is there, it stops for a
value that may come. -/
def whenDry (f : Feed) (c : Call) : Except Dry Given :=
  if f.batch then c.ending else if c = .take then .ok .nothing else .error (.requested c.prompt)

theorem on_nil (h : f.left = []) (c : Call) : c.on f = (f.whenDry c, f) := by
  cases c <;> cases hb : f.batch <;>
    simp [whenDry, Call.on, Call.ending, Call.prompt, Call.stepOf, ask, readLine, readAll,
      readLines, take_nil h, drain_nil h, dry, hb, Except.map, linesOf, String.join]

theorem whenDry_cases (f : Feed) (c : Call) :
    (∃ g, f.whenDry c = .ok g ∧ g.Delivers [] ∧ (f.batch = false → c = .take)) ∨
      f.whenDry c = .error (f.dry c.prompt) ∧ c ≠ .take := by
  unfold whenDry dry
  cases f.batch with
  | false =>
      by_cases hc : c = .take
      · exact .inl ⟨.nothing, by simp [hc], rfl, fun _ => hc⟩
      · exact .inr ⟨by simp [hc], hc⟩
  | true =>
      cases c with
      | take | nextLine => exact .inl ⟨.nothing, rfl, rfl, nofun⟩
      | input => exact .inr ⟨rfl, nofun⟩
      | readLine | readAll => exact .inl ⟨.text "", rfl, rfl, nofun⟩
      | readLines => exact .inl ⟨.lines [], rfl, rfl, nofun⟩

theorem on_cons (hone : c.ReadsOne) (h : f.left = v :: vs) :
    c.on f = (.ok (c.given v), { f with left := vs, taken := f.taken + 1 }) := by
  cases c with
  | take => simp [Call.on, Call.given, take_cons h]
  | input => simp [Call.on, Call.given, ask, take_cons h, Except.map]
  | readLine => simp [Call.on, Call.given, readLine, take_cons h, Except.map]
  | nextLine =>
      simp only [Call.on, Call.given, readLine, take_cons h, Except.map, stepOf_line]
  | readAll => exact absurd rfl hone.1
  | readLines => exact absurd rfl hone.2

theorem readAll_on_cons (h : f.left = v :: vs) :
    Call.readAll.on f = (.ok (.text (linesOf (v :: vs))), f.drain.2) := by
  simp [Call.on, readAll, drain, h, Except.map]

theorem readLines_on_cons (h : f.left = v :: vs) : Call.readLines.on f =
    (if f.batch then .ok (.lines ((v :: vs).map (· ++ "\n"))) else .error (.requested ""),
      f.drain.2) := by
  cases hb : f.batch <;> simp [Call.on, readLines, drain, h, hb, Except.map]

/-- What a call does to a feed: it reads some of the values that are left and gives just these if it
completes. A call that fails has found no value, but for one that wants all lines. -/
structure Moves (c : Call) (f : Feed) (n : Nat) : Prop where
  room : n ≤ f.left.length
  progress : f.left ≠ [] → 0 < n
  after : (c.on f).2 = { f with left := f.left.drop n, taken := f.taken + n }
  delivers : ∀ g, (c.on f).1 = .ok g → g.Delivers (f.left.take n)
  fails : ∀ d, (c.on f).1 = .error d →
    d = f.dry c.prompt ∧ n = f.left.length ∧ (c ≠ .readLines → n = 0)
  completes : f.batch = false →
    ((∃ g, (c.on f).1 = .ok g) ↔ c = .take ∨ f.left ≠ [] ∧ c ≠ .readLines)

theorem moves_of_nil (h : f.left = []) (c : Call) : Moves c f 0 where
  room := Nat.zero_le _
  progress hleft := absurd h hleft
  after := by rw [on_nil h]; rfl
  delivers g hg := by
    rw [on_nil h] at hg
    obtain ⟨g', hg', hnone, -⟩ | ⟨herror, -⟩ := whenDry_cases f c
    · exact Except.ok.inj (hg'.symm.trans hg) ▸ hnone
    · exact absurd (herror.symm.trans hg) nofun
  fails d hd := by
    rw [on_nil h] at hd
    obtain ⟨g, hg, -⟩ | ⟨herror, -⟩ := whenDry_cases f c
    · exact absurd (hg.symm.trans hd) nofun
    · exact ⟨Except.error.inj (hd.symm.trans herror), by rw [h]; rfl, fun _ => rfl⟩
  completes hbatch := by
    rw [on_nil h]
    obtain ⟨g, hg, -, htake⟩ | ⟨herror, htake⟩ := whenDry_cases f c
    · exact iff_of_true ⟨g, hg⟩ (.inl (htake hbatch))
    · refine iff_of_false (fun ⟨g, hg⟩ => absurd (herror.symm.trans hg) nofun) ?_
      rintro (hc | ⟨hleft, -⟩)
      · exact htake hc
      · exact hleft h

theorem moves_of_one (hone : c.ReadsOne) (h : f.left = v :: vs) : Moves c f 1 := by
  have hon := on_cons hone h
  refine ⟨?_, fun _ => Nat.one_pos, ?_, fun g hg => ?_, fun d hd => ?_, fun _ => ?_⟩
  · rw [h]
    exact Nat.le_add_left _ _
  · rw [hon, h]
    rfl
  · rw [hon] at hg
    rw [← Except.ok.inj hg, h]
    exact delivers_given hone v
  · rw [hon] at hd
    nomatch hd
  · rw [hon]
    exact iff_of_true ⟨_, rfl⟩ (.inr ⟨h ▸ nofun, hone.2⟩)

theorem moves_readAll (h : f.left = v :: vs) : Moves .readAll f f.left.length := by
  have hon := readAll_on_cons h
  refine ⟨Nat.le_refl _, List.length_pos_iff.mpr, ?_, fun g hg => ?_, fun d hd => ?_, fun _ => ?_⟩
  · rw [hon, List.drop_length]
    rfl
  · rw [hon] at hg
    rw [← Except.ok.inj hg, List.take_length, h]
    rfl
  · rw [hon] at hd
    nomatch hd
  · rw [hon]
    exact iff_of_true ⟨_, rfl⟩ (.inr ⟨h ▸ nofun, nofun⟩)

theorem moves_readLines (h : f.left = v :: vs) : Moves .readLines f f.left.length := by
  have hon := readLines_on_cons h
  refine ⟨Nat.le_refl _, List.length_pos_iff.mpr, ?_, fun g hg => ?_, fun d hd => ?_,
    fun hbatch => ?_⟩
  · rw [hon, List.drop_length]
    rfl
  · rw [hon] at hg
    cases hb : f.batch with
    | true =>
        rw [hb, if_pos rfl] at hg
        rw [← Except.ok.inj hg, List.take_length, h]
        rfl
    | false =>
        rw [hb] at hg
        nomatch hg
  · rw [hon] at hd
    cases hb : f.batch with
    | true =>
        rw [hb] at hd
        nomatch hd
    | false =>
        rw [hb] at hd
        refine ⟨?_, rfl, fun hc => absurd rfl hc⟩
        rw [← Except.error.inj hd, dry, hb]
        rfl
  · rw [hon, hbatch]
    refine iff_of_false (fun ⟨g, hg⟩ => nomatch hg) ?_
    rintro (hc | ⟨-, hc⟩)
    · nomatch hc
    · exact hc rfl

theorem exists_moves (c : Call) (f : Feed) : ∃ n, Moves c f n := by
  cases hl : f.left with
  | nil => exact ⟨0, moves_of_nil hl c⟩
  | cons v vs =>
      by_cases hall : c = .readAll
      · exact ⟨_, hall ▸ moves_readAll hl⟩
      by_cases hlines : c = .readLines
      · exact ⟨_, hlines ▸ moves_readLines hl⟩
      exact ⟨1, moves_of_one ⟨hall, hlines⟩ hl⟩

/-! ### The loops of the standard input -/

def takeUntilDry : (fuel : Nat) → Feed → List String × Feed
  | 0, f => ([], f)
  | fuel + 1, f =>
    match f.take with
    | (none, f) => ([], f)
    | (some v, f) => (v :: (takeUntilDry fuel f).1, (takeUntilDry fuel f).2)

theorem drain_eq_takeUntilDry {fuel : Nat} (hfuel : f.left.length < fuel) :
    f.drain = takeUntilDry fuel f := by
  induction fuel generalizing f with
  | zero => exact absurd hfuel (Nat.not_lt_zero _)
  | succ fuel ih =>
      cases h : f.left with
      | nil => rw [takeUntilDry, take_nil h, drain_nil h]
      | cons v vs =>
          have hrest : vs.length < fuel := by simpa [h] using hfuel
          rw [takeUntilDry, take_cons h]
          dsimp only
          rw [← ih (f := { f with left := vs, taken := f.taken + 1 }) hrest]
          simp [drain, h, Nat.add_comm, Nat.add_left_comm]

def lineByLine : (fuel : Nat) → Feed → Except Dry (List String) × Feed
  | 0, f => (.ok [], f)
  | fuel + 1, f =>
    match f.readLine with
    | (.error dry, f) => (.error dry, f)
    | (.ok line, f) =>
      if line = "" then (.ok [], f)
      else ((lineByLine fuel f).1.map (line :: ·), (lineByLine fuel f).2)

/-- The lines that are left are what an iteration over single lines reads. -/
theorem readLines_eq_lineByLine {fuel : Nat} (hfuel : f.left.length < fuel) :
    f.readLines = lineByLine fuel f := by
  induction fuel generalizing f with
  | zero => exact absurd hfuel (Nat.not_lt_zero _)
  | succ fuel ih =>
      cases h : f.left with
      | nil =>
          rw [lineByLine, readLine, take_nil h, readLines, drain_nil h]
          cases hb : f.batch <;> simp [hb]
      | cons v vs =>
          have hrest : vs.length < fuel := by simpa [h] using hfuel
          have hline : v ++ "\n" ≠ "" := fun he => by simpa using congrArg String.toList he
          rw [lineByLine, readLine, take_cons h]
          dsimp only
          rw [if_neg hline, ← ih (f := { f with left := vs, taken := f.taken + 1 }) hrest]
          cases hb : f.batch <;>
            simp [readLines, drain, h, hb, Except.map, Nat.add_comm, Nat.add_left_comm]

/-! ### Call after call -/

structure Event where
  call : Call
  before : Feed
  reply : Except Dry Given
  after : Feed

def trace : List Call → Feed → List Event
  | [], _ => []
  | c :: calls, f => ⟨c, f, (c.on f).1, (c.on f).2⟩ :: trace calls (c.on f).2

def after (calls : List Call) (f : Feed) : Feed := calls.foldl (fun f c => (c.on f).2) f

/-- The feed has read the values up to its cursor, and the others are left. -/
structure Reading (values : List String) (batch : Bool) (f : Feed) : Prop where
  left : f.left = values.drop f.taken
  within : f.taken ≤ values.length
  batch : f.batch = batch

/-- The values between the cursors of a call. -/
def Event.handed (values : List String) (e : Event) : List String :=
  (values.drop e.before.taken).take (e.after.taken - e.before.taken)

/-- A call is accounted for: it moves the cursor over the values that it hands out, and stays among
them. -/
structure Event.Accounted (values : List String) (batch : Bool) (e : Event) : Prop where
  counted : e.after.taken = e.before.taken + (e.handed values).length
  within : e.after.taken ≤ values.length
  /-- What a call gives has the values in it that the cursor went over. -/
  delivers : ∀ g, e.reply = .ok g → g.Delivers (e.handed values)
  /-- A call that fails has found no value, but for one that wants all lines. -/
  fails : ∀ d, e.reply = .error d →
    d = (if batch then .ended else .requested e.call.prompt) ∧ e.after.taken = values.length ∧
      (e.call ≠ .readLines → e.handed values = [])
  /-- When further values may come, a call completes if there are values for it, and never has all
  lines. -/
  completes : batch = false →
    ((∃ g, e.reply = .ok g) ↔
      e.call = .take ∨ e.before.taken < values.length ∧ e.call ≠ .readLines)

theorem reading_ofMode (values : List String) (mode : RunMode) (echo : Bool) :
    (ofMode values mode.name echo).Reading values (mode = .batch) where
  left := rfl
  within := Nat.zero_le _
  batch := by cases mode <;> rfl

section

variable {values : List String} {batch : Bool} {call : Call}

theorem Reading.length_left (h : f.Reading values batch) :
    f.taken + f.left.length = values.length := by
  rw [h.left, List.length_drop]
  exact Nat.add_sub_cancel' h.within

theorem Reading.on (h : f.Reading values batch) (c : Call) : (c.on f).2.Reading values batch := by
  obtain ⟨n, hn⟩ := exists_moves c f
  rw [hn.after]
  refine ⟨?_, ?_, h.batch⟩
  · rw [h.left, List.drop_drop]
  · have hroom := hn.room
    have hlength := h.length_left
    dsimp only
    omega

theorem Reading.accounted (h : f.Reading values batch) (c : Call) :
    (Event.mk c f (c.on f).1 (c.on f).2).Accounted values batch := by
  obtain ⟨n, hn⟩ := exists_moves c f
  have htaken : (c.on f).2.taken = f.taken + n := by rw [hn.after]
  have hhanded : (Event.mk c f (c.on f).1 (c.on f).2).handed values = f.left.take n := by
    rw [Event.handed, htaken, Nat.add_sub_cancel_left, h.left]
  have hlength := h.length_left
  have hroom := hn.room
  refine ⟨?_, ?_, fun g hg => ?_, fun d hd => ?_, fun hbatch => ?_⟩
  · rw [hhanded, List.length_take_of_le hn.room]
    exact htaken
  · exact htaken ▸ (by omega : f.taken + n ≤ values.length)
  · rw [hhanded]
    exact hn.delivers g hg
  · obtain ⟨hd, hall, hnone⟩ := hn.fails d hd
    refine ⟨?_, htaken.trans (by omega), fun hc => ?_⟩
    · rw [hd, dry, h.batch]
    · rw [hhanded, hnone hc]
      rfl
  · have hsome : f.left ≠ [] ↔ f.taken < values.length := by
      rw [← List.length_pos_iff]
      omega
    rw [hn.completes (h.batch.trans hbatch), hsome]

/-- So is every call of a run, and each begins where the one before has ended. -/
theorem Reading.accounted_trace (h : f.Reading values batch) (calls : List Call) :
    (∀ e ∈ trace calls f, e.Accounted values batch) ∧
      (after calls f).Reading values batch ∧
        values.take f.taken ++ (trace calls f).flatMap (Event.handed values) =
          values.take (after calls f).taken := by
  induction calls generalizing f with
  | nil => exact ⟨nofun, h, List.append_nil _⟩
  | cons c calls ih =>
      obtain ⟨haccounted, hreading, hhanded⟩ := ih (h.on c)
      have hfirst := h.accounted c
      refine ⟨List.forall_mem_cons.mpr ⟨hfirst, haccounted⟩, hreading, ?_⟩
      rw [trace, List.flatMap_cons, ← List.append_assoc]
      have htake : values.take f.taken ++
          (Event.mk c f (c.on f).1 (c.on f).2).handed values = values.take (c.on f).2.taken := by
        obtain ⟨n, hn⟩ := exists_moves c f
        rw [Event.handed, hn.after, Nat.add_sub_cancel_left, List.take_add]
      rw [htake]
      exact hhanded

end

end Rerun.Feed
