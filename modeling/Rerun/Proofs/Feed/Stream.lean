import Rerun.Proofs.Feed.Calls
import Rerun.Text.Blank

/-!
A feed that nobody can add to reads like a text: the one that holds each of its values followed by a
newline. Its values hold no newlines, so that every value is one line of the text.
-/

namespace Rerun.Feed

/-! ### Reading from a text -/

/-- The first line of a text, with the newline that ends it, and what comes after it. -/
def cutLine : List Char → List Char × List Char
  | [] => ([], [])
  | c :: cs => if c = '\n' then ([c], cs) else (c :: (cutLine cs).1, (cutLine cs).2)

def keptLines : List Char → List (List Char)
  | [] => []
  | c :: cs => if c = '\n' then [c] :: keptLines cs else Text.consWord c (keptLines cs)

def chomp (line : List Char) : List Char :=
  if line.getLast? = some '\n' then line.dropLast else line

namespace Call

/-- What a call gives on a text, and what is then left of the text. A prompted read strips the
newline and fails at the end of the text. -/
def onText : Call → List Char → Except Dry Given × List Char
  | take, cs =>
    (.ok (if cs = [] then .nothing else .value (String.ofList (chomp (cutLine cs).1))),
      (cutLine cs).2)
  | input _, cs =>
    (if cs = [] then .error .ended else .ok (.value (String.ofList (chomp (cutLine cs).1))),
      (cutLine cs).2)
  | readLine, cs => (.ok (.text (String.ofList (cutLine cs).1)), (cutLine cs).2)
  | readAll, cs => (.ok (.text (String.ofList cs)), [])
  | readLines, cs => (.ok (.lines ((keptLines cs).map String.ofList)), [])
  | nextLine, cs =>
    (.ok (if cs = [] then .nothing else .text (String.ofList (cutLine cs).1)), (cutLine cs).2)

end Call

def repliesOnText : List Call → List Char → List (Except Dry Given)
  | [], _ => []
  | c :: calls, cs => (c.onText cs).1 :: repliesOnText calls (c.onText cs).2

/-! ### Values as lines -/

variable {line cs : List Char} {v : String} {vs : List String} {f : Feed}

theorem cutLine_append (h : '\n' ∉ line) (cs : List Char) :
    cutLine (line ++ '\n' :: cs) = (line ++ ['\n'], cs) := by
  induction line with
  | nil => rfl
  | cons c line ih =>
      have hc : c ≠ '\n' := fun hc => h (hc ▸ List.mem_cons_self)
      rw [List.cons_append, cutLine, if_neg hc, ih fun hm => h (List.mem_cons_of_mem c hm)]
      rfl

theorem keptLines_append (h : '\n' ∉ line) (cs : List Char) :
    keptLines (line ++ '\n' :: cs) = (line ++ ['\n']) :: keptLines cs := by
  induction line with
  | nil => rfl
  | cons c line ih =>
      have hc : c ≠ '\n' := fun hc => h (hc ▸ List.mem_cons_self)
      rw [List.cons_append, keptLines, if_neg hc, ih fun hm => h (List.mem_cons_of_mem c hm)]
      rfl

@[simp] theorem chomp_line (line : List Char) : chomp (line ++ ['\n']) = line := by
  simp [chomp]

theorem toList_linesOf_cons (v : String) (vs : List String) :
    (linesOf (v :: vs)).toList = v.toList ++ '\n' :: (linesOf vs).toList := by
  rw [linesOf_cons]
  simp

theorem keptLines_linesOf (h : ∀ v ∈ vs, '\n' ∉ v.toList) :
    (keptLines (linesOf vs).toList).map String.ofList = vs.map (· ++ "\n") := by
  induction vs with
  | nil => rfl
  | cons v vs ih =>
      obtain ⟨hv, hvs⟩ := List.forall_mem_cons.mp h
      rw [toList_linesOf_cons, keptLines_append hv, List.map_cons, List.map_cons, ih hvs]
      simp

/-! ### The two agree -/

theorem onText_linesOf (hbatch : f.batch = true) (h : ∀ v ∈ f.left, '\n' ∉ v.toList) (c : Call) :
    c.onText (linesOf f.left).toList = ((c.on f).1, (linesOf (c.on f).2.left).toList) := by
  cases hl : f.left with
  | nil =>
      rw [on_nil hl, hl, whenDry, if_pos hbatch]
      cases c <;> rfl
  | cons v vs =>
      have hv : '\n' ∉ v.toList := h v (hl ▸ List.mem_cons_self)
      have hcut := cutLine_append hv (linesOf vs).toList
      have hlines := toList_linesOf_cons v vs
      have hne : (linesOf (v :: vs)).toList ≠ [] := by simp [hlines]
      rw [← hlines] at hcut
      by_cases hall : c = .readAll
      · subst hall
        rw [readAll_on_cons hl, Call.onText, String.ofList_toList]
        rfl
      by_cases hwhole : c = .readLines
      · subst hwhole
        rw [readLines_on_cons hl, if_pos hbatch, Call.onText, keptLines_linesOf (hl ▸ h)]
        rfl
      rw [on_cons ⟨hall, hwhole⟩ hl]
      cases c <;> simp_all [Call.onText, Call.given]

theorem replies_trace (hbatch : f.batch = true) (h : ∀ v ∈ f.left, '\n' ∉ v.toList)
    (calls : List Call) :
    (trace calls f).map Event.reply = repliesOnText calls (linesOf f.left).toList := by
  induction calls generalizing f with
  | nil => rfl
  | cons c calls ih =>
      obtain ⟨n, hn⟩ := exists_moves c f
      have hleft : (c.on f).2.left = f.left.drop n := by rw [hn.after]
      have hrest : ∀ v ∈ (c.on f).2.left, '\n' ∉ v.toList := fun v hv =>
        h v (List.mem_of_mem_drop (hleft ▸ hv))
      have hstill : (c.on f).2.batch = true := by rw [hn.after]; exact hbatch
      rw [trace, List.map_cons, ih hstill hrest, repliesOnText, onText_linesOf hbatch h c]

/-- Every value is delivered once and in order, whatever is called. When nobody can give further
values, the calls read the text of the values; and in every mode the cursor counts the values handed
out, which are the first ones, and each call that completes delivers those that the cursor went
over. -/
theorem delivers_in_order {values : List String} (hlines : ∀ v ∈ values, '\n' ∉ v.toList)
    (calls : List Call) (echo : Bool) :
    (trace calls (ofMode values RunMode.batch.name echo)).map Event.reply =
        repliesOnText calls (linesOf values).toList ∧
      ∀ mode : RunMode, let f := ofMode values mode.name echo
        (∀ e ∈ trace calls f, e.Accounted values (mode = .batch)) ∧
          (after calls f).taken ≤ values.length ∧
            (trace calls f).flatMap (Event.handed values) = values.take (after calls f).taken := by
  refine ⟨replies_trace rfl hlines calls, fun mode => ?_⟩
  obtain ⟨haccounted, hreading, hhanded⟩ :=
    (reading_ofMode values mode echo).accounted_trace calls
  exact ⟨haccounted, hreading.within, hhanded⟩

/-- Two values that are read by a prompt, by an iteration and by a read of everything. -/
theorem delivers_in_order_mixed :
    (∀ v ∈ ["a", "b"], '\n' ∉ v.toList) ∧
      repliesOnText [.input "?", .nextLine, .readAll, .input ""] (linesOf ["a", "b"]).toList =
        [.ok (.value "a"), .ok (.text "b\n"), .ok (.text ""), .error .ended] ∧
      (trace [.input "?", .nextLine, .readAll, .input ""]
          (ofMode ["a", "b"] RunMode.batch.name true)).map Event.reply =
        repliesOnText [.input "?", .nextLine, .readAll, .input ""] (linesOf ["a", "b"]).toList :=
  have hlines : ∀ v ∈ ["a", "b"], '\n' ∉ v.toList := by decide
  ⟨hlines, by rfl, (delivers_in_order hlines [.input "?", .nextLine, .readAll, .input ""] true).1⟩

end Rerun.Feed
