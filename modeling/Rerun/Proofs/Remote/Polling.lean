import Rerun.Proofs.Remote.Escapes

/-!
The way of a program through the remote judge, from its one submission to its end. The client looks
at the clock, asks for the status and waits, as long as the deadline has not come and nobody has set
the event (`RemoteClient.moment`). What it comes to is decided by the first answer that is not
pending, by the event or by the deadline, in whatever order they come
(`RemoteClient.execute_settles`).
-/

namespace Rerun

open Sandbox

namespace Binary64

theorem ofInt_of_log2 {n : Nat} (h : 1025 ≤ n.log2) : ofInt n = .infinite false := by
  have hne : n ≠ 0 := by
    rintro rfl
    exact absurd h (by decide)
  have hexponent : maxExponent < exponentFor n 1 := by
    have hone : Nat.log2 1 = 0 := by decide
    unfold exponentFor maxExponent minExponent
    rw [hone]
    dsimp only
    split <;> omega
  have hcarry (m : Nat) : carry false m (exponentFor n 1) = .infinite false := by
    unfold carry
    by_cases hm : m = twoTo 53
    · rw [if_pos hm]
      exact if_pos (Int.lt_add_one_of_le (Int.le_of_lt hexponent))
    · rw [if_neg hm]
      exact if_pos hexponent
  have hnegative : decide ((n : Int) < 0) = false :=
    decide_eq_false (Int.not_lt.mpr (Int.natCast_nonneg n))
  rw [ofInt, ofRatio, Int.natAbs_natCast, if_neg hne, hnegative]
  exact hcarry _

theorem exists_reached (deadline : Binary64) :
    ∃ T : Nat, ∀ ms : Int, T ≤ ms → (ofMillis ms).lt deadline = false := by
  obtain ⟨k, hk⟩ : ∃ k, 1025 ≤ k := ⟨1025, Nat.le_refl _⟩
  refine ⟨2 ^ k, fun ms h => ?_⟩
  obtain ⟨n, rfl⟩ := Int.eq_ofNat_of_zero_le (Int.le_trans (Int.natCast_nonneg _) h)
  have hle : 2 ^ k ≤ n := Int.ofNat_le.mp h
  have hne : n ≠ 0 := Nat.ne_of_gt (Nat.lt_of_lt_of_le (Nat.two_pow_pos k) hle)
  have hthousand : ofInt 1000 = .finite false 8796093022208000 (-43) := by decide +kernel
  rw [ofMillis, ofInt_of_log2 (Nat.le_trans hk ((Nat.le_log2 hne).mpr hle)), hthousand]
  cases deadline <;> rfl

end Binary64

theorem Cancel.wait_cases (cancel : Cancel) (seconds : Binary64) (others : Interrupts)
    (s : Sandbox) :
    (∃ ms, cancel.wait seconds others s = (.ok true, { s with clock := ms }) ∧
      cancel.dueAt { s with clock := ms } = some ms) ∨
    cancel.wait seconds others s =
      (.ok false, { s with clock := s.clock + seconds.toMillis }) := by
  unfold Cancel.wait
  cases hdue : cancel.dueAt s with
  | none => exact .inr rfl
  | some ms =>
      dsimp only
      split
      · refine .inl ⟨ms, rfl, ?_⟩
        -- An event that is set, or becomes set at a moment, is set at that moment.
        cases cancel with
        | noEvent => nomatch hdue
        | «at» time =>
            cases time with
            | noEvent => nomatch hdue
            | never => nomatch hdue
            | «at» due =>
                have hms := Option.some.inj hdue
                simp only [dueAt, ← hms, Option.some.injEq]
                omega
        | run i =>
            simp only [dueAt] at hdue ⊢
            split at hdue
            · rw [if_pos ‹_›]
            · nomatch hdue
      · exact .inr rfl

/-- Others who have no business with a client's judge: they answer none of its requests, send none,
do not close it, and do not turn the clock back. They may do anything else, also cancel runs. -/
structure Interrupts.Aloof (others : Interrupts) (c : RemoteClient) : Prop where
  clock (commands : List Command) (s : Sandbox) : s.clock ≤ (others commands s).clock
  script (commands : List Command) (s : Sandbox) :
    (others commands s).remoteScript = s.remoteScript
  requests (commands : List Command) (s : Sandbox) :
    (others commands s).remoteRequests = s.remoteRequests
  isOpen {s : Sandbox} (commands : List Command) : c.IsOpen s → c.IsOpen (others commands s)

/-- A script of answers that come after the requests, none of which interrupts the client. -/
def Scripted.Orderly (script : List Scripted) : Prop :=
  ∀ r ∈ script, 0 ≤ r.took ∧ r.ended ≠ some .interrupt

theorem Scripted.Orderly.tail {script : List Scripted} (h : Orderly script) : Orderly script.tail :=
  fun r hr => h r (List.mem_of_mem_tail hr)

namespace RemoteClient

variable {c : RemoteClient} {others : Interrupts} {s t u : Sandbox}

/-! ### Answers -/

def answer (s : Sandbox) (k : Nat) : Option Ended :=
  (upcoming { s with remoteScript := s.remoteScript.drop k }).ended

/-- What the answer to a submission means for the client: a token, or a failure. -/
def submittedAs (c : RemoteClient) (ended : Option Ended) : Except Failure Json :=
  (c.reading "POST" "/submissions" ended).bind fun
    | .obj fields =>
      let token := (fields.lookup "token").getD .null
      if token.isFalsy then .error .remoteNoToken else .ok token
    | _ => .error (.other "AttributeError")

/-- What answers a submission, when it can be read, is an object; its token, if there is one, is a
text by which the submission can be asked for. -/
def Acknowledges (ended : Option Ended) : Prop :=
  ∀ j, heard ended = some j → ∃ fields, j = .obj fields ∧
    (((fields.lookup "token").getD .null).isFalsy = true ∨ ∃ token : String,
      fields.lookup "token" = some (.str token) ∧ isAddress (statusPath (.str token)) = true)

/-- What the answer to a poll means for the client: a response, or a failure. -/
def polledAs (c : RemoteClient) (token : Json) (ended : Option Ended) :
    Except Failure RemoteResponse :=
  (c.reading "GET" (statusPath token) ended).bind fun payload =>
    match Shape.fit RemoteResponse.shape payload with
    | .ok j => .ok (.ofFields j)
    | .error _ => .error (.remotePayload (Value.ofJson token).text)

def Pending (c : RemoteClient) (token : Json) (ended : Option Ended) : Prop :=
  ∃ response, c.polledAs token ended = .ok response ∧ response.finished = false

def submission (c : RemoteClient) (source stdin : String) (expected : Option String) :
    RemoteRequest :=
  ⟨"POST", requestUrl c.baseUrl "/submissions" "?base64_encoded=false&wait=false",
    Submission.toJson ⟨source, if stdin = "" then none else some stdin, expected⟩, c.credentials⟩

def inquiry (c : RemoteClient) (token : Json) : RemoteRequest :=
  ⟨"GET", requestUrl c.baseUrl (statusPath token) "?base64_encoded=false", .null, c.credentials⟩

def polled (c : RemoteClient) (token : Json) (others : Interrupts) (s : Sandbox) : Sandbox :=
  (c.exchange "GET" (statusPath token) "?base64_encoded=false" .null others s).2

def lapse (c : RemoteClient) (token : Json) (cancel : Cancel) (others : Interrupts) (s : Sandbox) :
    Sandbox :=
  (cancel.wait c.pollInterval others (c.polled token others s)).2

/-- The state in which the client looks at the clock after `k` polls and waits. -/
def moment (c : RemoteClient) (token : Json) (cancel : Cancel) (others : Interrupts) :
    (s : Sandbox) → (k : Nat) → Sandbox
  | s, 0 => s
  | s, k + 1 => moment c token cancel others (c.lapse token cancel others s) k

/-- What becomes of a submission after `n` polls: the state in which the client leaves it, and what
the client gives. -/
inductive Ends (c : RemoteClient) (token : String) (deadline : Binary64) (cancel : Cancel)
    (others : Interrupts) (s : Sandbox) :
    (n : Nat) → Sandbox → Except Failure (Option RemoteResponse) → Prop where
  /-- The last poll was the first one to tell of a final status. -/
  | final {n : Nat} {response : RemoteResponse} :
    (∀ k < n, c.Pending (.str token) (answer s k)) →
      c.polledAs (.str token) (answer s n) = .ok response → response.finished = true →
      Ends c token deadline cancel others s (n + 1)
        (c.polled (.str token) others (c.moment (.str token) cancel others s n))
        (.ok (some response))
  /-- The last poll was the first one to fail. -/
  | failed {n : Nat} {e : Failure} :
    (∀ k < n, c.Pending (.str token) (answer s k)) →
      c.polledAs (.str token) (answer s n) = .error e → e.kind = .remote →
      Ends c token deadline cancel others s (n + 1)
        (c.polled (.str token) others (c.moment (.str token) cancel others s n)) (.error e)
  /-- The event is set. -/
  | cancelled {n : Nat} {u : Sandbox} :
    (∀ k < n, c.Pending (.str token) (answer s k)) →
      u = c.moment (.str token) cancel others s n → cancel.dueAt u = some u.clock →
      Ends c token deadline cancel others s n u (.ok none)
  /-- The deadline has come. -/
  | outOfTime {n : Nat} {u : Sandbox} :
    (∀ k < n, c.Pending (.str token) (answer s k)) →
      u = c.moment (.str token) cancel others s n →
      (Binary64.ofMillis u.clock).lt deadline = false →
      Ends c token deadline cancel others s n u (.ok (some (.outOfTime token)))

/-- The way of a submission that has got its token in a state. -/
structure Settles (c : RemoteClient) (token : String) (deadline : Binary64) (cancel : Cancel)
    (others : Interrupts) (s : Sandbox) (n : Nat) (u : Sandbox)
    (result : Except Failure (Option RemoteResponse)) : Prop where
  ends : c.Ends token deadline cancel others s n u result
  /-- Only the submission is polled, once in each round. -/
  requests : u.remoteRequests = s.remoteRequests ++ List.replicate n (c.inquiry (.str token))
  /-- Each poll begins before the deadline, and before the event is set. -/
  due {k : Nat} : k < n → IsDue deadline cancel (c.moment (.str token) cancel others s k)
  /-- The polls are as far apart as the client waits. -/
  paced {k : Nat} : k < n →
    s.clock + k * c.pollInterval.toMillis ≤ (c.moment (.str token) cancel others s k).clock

/-! ### One request -/

theorem exchange_fst {method path query : String} {body : Json} :
    (c.exchange method path query body others s).1 = answer s 0 :=
  rfl

theorem answer_succ {s s' : Sandbox} (h : s'.remoteScript = s.remoteScript.tail) (k : Nat) :
    answer s' k = answer s (k + 1) := by
  rw [answer, answer, upcoming, upcoming, h, List.drop_tail]

theorem submit_eq (h : c.IsOpen s) (source stdin : String) (expected : Option String) :
    ∃ t, c.submit source stdin expected others s = (c.submittedAs (answer s 0), t) ∧
      t = (c.exchange "POST" "/submissions" "?base64_encoded=false&wait=false"
        (Submission.toJson ⟨source, if stdin = "" then none else some stdin, expected⟩)
        others s).2 := by
  refine ⟨_, ?_, rfl⟩
  rw [submit, Op.bind_apply, request_exchange h, submittedAs]
  rw [exchange_fst]
  cases c.reading "POST" "/submissions" (answer s 0) with
  | error e => rfl
  | ok payload =>
      cases payload with
      | obj fields =>
          dsimp only [Except.bind]
          split <;> rfl
      | _ => rfl

theorem poll_eq {token : Json} (h : c.IsOpen s) (haddress : isAddress (statusPath token) = true) :
    c.poll token others s = (c.polledAs token (answer s 0), c.polled token others s) := by
  have hopen : ¬ (!isAddress (statusPath token)) = true := by simp [haddress]
  rw [poll_unfold, if_neg hopen, Op.bind_apply, request_exchange h, exchange_fst, polledAs, polled]
  cases c.reading "GET" (statusPath token) (answer s 0) with
  | error e => rfl
  | ok payload =>
      cases hfit : Shape.fit RemoteResponse.shape payload <;> simp [Except.bind, hfit, Op.fail]

/-- What a request leaves when others keep aloof: it is noted, and the next answer is gone. -/
structure Advances (c : RemoteClient) (request : RemoteRequest) (s t : Sandbox) : Prop where
  script : t.remoteScript = s.remoteScript.tail
  requests : t.remoteRequests = s.remoteRequests ++ [request]
  clock : s.clock ≤ t.clock
  isOpen : c.IsOpen t

theorem advances_exchange (hopen : c.IsOpen s) (haloof : others.Aloof c)
    (hscript : Scripted.Orderly s.remoteScript) (method path query : String) (body : Json) :
    c.Advances ⟨method, requestUrl c.baseUrl path query, body, c.credentials⟩ s
      (c.exchange method path query body others s).2 where
  script := haloof.script _ _
  requests := haloof.requests _ _
  isOpen := haloof.isOpen _ hopen
  clock := by
    have htook : 0 ≤ (upcoming s).took := by
      cases hs : s.remoteScript with
      | nil => simp [upcoming, hs]
      | cons r rest =>
          simp only [upcoming, hs, List.headD_cons]
          exact (hscript r (by simp [hs])).1
    refine Int.le_trans ?_ (haloof.clock _ _)
    exact Int.le_add_of_nonneg_right htook

/-! ### The rounds -/

def Polled.given (token : String) : Polled → Option RemoteResponse
  | .response r => some r
  | .cancelled | .unfinished => none
  | .outOfTime => some (.outOfTime token)

variable {token : String} {deadline : Binary64} {cancel : Cancel} {n : Nat}
  {result : Except Failure (Option RemoteResponse)}

theorem Advances.lapse (h : c.Advances (c.inquiry (.str token)) s (c.polled (.str token) others s))
    (hlapse : c.lapse (.str token) cancel others s = { c.polled (.str token) others s with
      clock := (c.polled (.str token) others s).clock + c.pollInterval.toMillis }) :
    (c.lapse (.str token) cancel others s).remoteScript = s.remoteScript.tail ∧
      c.IsOpen (c.lapse (.str token) cancel others s) := by
  rw [hlapse]
  exact ⟨h.script, h.isOpen⟩

/-- After a round that comes to nothing the client goes on as from there. -/
theorem Settles.round (hdue : IsDue deadline cancel s)
    (hpending : c.Pending (.str token) (answer s 0))
    (hpolled : c.Advances (c.inquiry (.str token)) s (c.polled (.str token) others s))
    (hlapse : c.lapse (.str token) cancel others s = { c.polled (.str token) others s with
      clock := (c.polled (.str token) others s).clock + c.pollInterval.toMillis })
    (h : c.Settles token deadline cancel others (c.lapse (.str token) cancel others s) n u result) :
    c.Settles token deadline cancel others s (n + 1) u result := by
  have hanswer (k : Nat) :
      answer (c.lapse (.str token) cancel others s) k = answer s (k + 1) :=
    answer_succ (hpolled.lapse hlapse).1 k
  have hall {m : Nat} (hm : ∀ k < m, c.Pending (.str token)
      (answer (c.lapse (.str token) cancel others s) k)) :
      ∀ k < m + 1, c.Pending (.str token) (answer s k) := by
    intro k hk
    cases k with
    | zero => exact hpending
    | succ k =>
        rw [← hanswer]
        exact hm k (Nat.lt_of_succ_lt_succ hk)
  refine ⟨?_, ?_, fun {k} hk => ?_, fun {k} hk => ?_⟩
  · cases h.ends with
    | final hm hresponse hfinished =>
        rw [hanswer] at hresponse
        exact .final (hall hm) hresponse hfinished
    | failed hm herror hkind =>
        rw [hanswer] at herror
        exact .failed (hall hm) herror hkind
    | cancelled hm hu hset => exact .cancelled (hall hm) hu hset
    | outOfTime hm hu hlate => exact .outOfTime (hall hm) hu hlate
  · have hrequests : (c.lapse (.str token) cancel others s).remoteRequests =
        s.remoteRequests ++ [c.inquiry (.str token)] := by
      rw [hlapse]
      exact hpolled.requests
    rw [h.requests, hrequests, List.append_assoc]
    rfl
  · cases k with
    | zero => exact hdue
    | succ k => exact h.due (Nat.lt_of_succ_lt_succ hk)
  · cases k with
    | zero => simp [moment]
    | succ k =>
        have hpaced := h.paced (Nat.lt_of_succ_lt_succ hk)
        have hclock := hpolled.clock
        rw [hlapse] at hpaced
        rw [moment, hlapse]
        dsimp only at hpaced ⊢
        grind

theorem heeded_answer (hscript : Scripted.Orderly s.remoteScript) :
    answer s 0 ≠ some .interrupt := by
  cases hs : s.remoteScript with
  | nil => simp [answer, upcoming, hs]
  | cons r rest => simpa [answer, upcoming, hs] using (hscript r (by simp [hs])).2

theorem polledAs_kind {token : Json} {ended : Option Ended} {e : Failure}
    (hheeded : ended ≠ some .interrupt) (h : c.polledAs token ended = .error e) :
    e.kind = .remote := by
  unfold polledAs at h
  cases hreading : c.reading "GET" (statusPath token) ended with
  | error e' =>
      rw [hreading] at h
      obtain rfl := Except.error.inj h
      exact reading_reported.mpr hheeded e' hreading
  | ok payload =>
      rw [hreading] at h
      dsimp only [Except.bind] at h
      split at h
      · nomatch h
      · rw [← Except.error.inj h]
        rfl

def heed (c : RemoteClient) (token : Json) (deadline : Binary64) (cancel : Cancel) (fuel : Nat)
    (response : RemoteResponse) : Op Polled := do
  if response.finished then pure (.response response)
  else if ← cancel.wait c.pollInterval then pure .cancelled
  else c.pollUntil token deadline cancel fuel

theorem pollUntil_of_late {token : Json} (h : (Binary64.ofMillis s.clock).lt deadline = false)
    (fuel : Nat) :
    c.pollUntil token deadline cancel (fuel + 1) others s = (.ok .outOfTime, s) := by
  have hnow : now.Does s s.clock s := Op.does_view _
  rw [pollUntil, hnow.step, h]
  rfl

theorem pollUntil_of_set {token : Json} (hlt : (Binary64.ofMillis s.clock).lt deadline = true)
    (hset : cancel.dueAt s = some s.clock) (fuel : Nat) :
    c.pollUntil token deadline cancel (fuel + 1) others s = (.ok .cancelled, s) := by
  have hnow : now.Does s s.clock s := Op.does_view _
  have hevent : cancel.isSet.Does s (decide (cancel.dueAt s = some s.clock)) s := Op.does_view _
  rw [pollUntil, hnow.step, hlt]
  refine (hevent.step _ others).trans ?_
  rw [decide_eq_true hset]
  rfl

theorem pollUntil_of_due {token : Json} (h : IsDue deadline cancel s) (fuel : Nat) :
    c.pollUntil token deadline cancel (fuel + 1) others s =
      (c.poll token >>= c.heed token deadline cancel fuel) others s := by
  have hnow : now.Does s s.clock s := Op.does_view _
  have hevent : cancel.isSet.Does s (decide (cancel.dueAt s = some s.clock)) s := Op.does_view _
  rw [pollUntil, hnow.step, h.1]
  refine (hevent.step _ others).trans ?_
  rw [decide_eq_false h.2]
  rfl

theorem heed_of_final {token : Json} {response : RemoteResponse}
    (h : response.finished = true) (fuel : Nat) :
    c.heed token deadline cancel fuel response others s = (.ok (.response response), s) := by
  rw [heed, h]
  rfl

/-- After an answer that is pending the client waits, and goes on unless the event is set then. -/
theorem heed_of_pending {token : Json} {response : RemoteResponse}
    (h : response.finished = false) (fuel : Nat) :
    (c.heed token deadline cancel fuel response others (c.polled token others s) =
        (.ok .cancelled, c.lapse token cancel others s) ∧
      (c.lapse token cancel others s).remoteRequests = (c.polled token others s).remoteRequests ∧
      cancel.dueAt (c.lapse token cancel others s) =
        some (c.lapse token cancel others s).clock) ∨
    c.heed token deadline cancel fuel response others (c.polled token others s) =
        c.pollUntil token deadline cancel fuel others (c.lapse token cancel others s) ∧
      c.lapse token cancel others s = { c.polled token others s with
        clock := (c.polled token others s).clock + c.pollInterval.toMillis } := by
  have hheed {set : Bool} {v : Sandbox} (hwait : cancel.wait c.pollInterval others
      (c.polled token others s) = (.ok set, v)) :
      c.heed token deadline cancel fuel response others (c.polled token others s) =
        (if set then pure .cancelled else c.pollUntil token deadline cancel fuel : Op Polled)
          others v := by
    rw [heed, h]
    exact Op.bind_of_eq_ok hwait _
  obtain ⟨ms, hwait, hset⟩ | hwait :=
    cancel.wait_cases c.pollInterval others (c.polled token others s)
  · have hlapse : c.lapse token cancel others s = { c.polled token others s with clock := ms } :=
      congrArg Prod.snd hwait
    rw [hlapse]
    exact .inl ⟨hheed hwait, rfl, hset⟩
  · have hlapse : c.lapse token cancel others s = _ := congrArg Prod.snd hwait
    rw [hlapse]
    exact .inr ⟨hheed hwait, rfl⟩

theorem Settles.one {v : Sandbox} (hdue : IsDue deadline cancel s)
    (hpolled : c.Advances (c.inquiry (.str token)) s (c.polled (.str token) others s))
    (hv : v.remoteRequests = (c.polled (.str token) others s).remoteRequests)
    (hends : c.Ends token deadline cancel others s 1 v result) :
    c.Settles token deadline cancel others s 1 v result := by
  refine ⟨hends, ?_, fun hk => ?_, fun hk => ?_⟩
  · rw [hv, hpolled.requests]
    rfl
  · obtain rfl := Nat.lt_one_iff.mp hk
    exact hdue
  · obtain rfl := Nat.lt_one_iff.mp hk
    simp [moment]

theorem Settles.none (hends : c.Ends token deadline cancel others s 0 s result) :
    c.Settles token deadline cancel others s 0 s result :=
  ⟨hends, (List.append_nil _).symm, fun hk => absurd hk (Nat.not_lt_zero _),
    fun hk => absurd hk (Nat.not_lt_zero _)⟩

theorem Pending.length_pos {token : Json} (h : c.Pending token (answer s 0)) :
    0 < s.remoteScript.length := by
  obtain ⟨response, hanswer, -⟩ := h
  cases hs : s.remoteScript with
  | nil =>
      rw [answer, upcoming, hs] at hanswer
      cases hanswer
  | cons r rest => exact Nat.zero_lt_succ _

/-- A loop that has more rounds than there are answers comes to its end. -/
theorem pollUntil_settles (hopen : c.IsOpen s) (haloof : others.Aloof c)
    (hscript : Scripted.Orderly s.remoteScript)
    (haddress : isAddress (statusPath (.str token)) = true) (deadline : Binary64) (cancel : Cancel)
    {fuel : Nat} (hfuel : s.remoteScript.length < fuel) :
    ∃ n u polled, c.pollUntil (.str token) deadline cancel fuel others s = (polled, u) ∧
      c.Settles token deadline cancel others s n u (polled.map (·.given token)) := by
  induction fuel generalizing s with
  | zero => exact absurd hfuel (Nat.not_lt_zero _)
  | succ fuel ih =>
      cases hlt : (Binary64.ofMillis s.clock).lt deadline with
      | false => exact ⟨0, s, _, pollUntil_of_late hlt fuel, .none (.outOfTime nofun rfl hlt)⟩
      | true =>
          by_cases hset : cancel.dueAt s = some s.clock
          · exact ⟨0, s, _, pollUntil_of_set hlt hset fuel, .none (.cancelled nofun rfl hset)⟩
          have hdue : IsDue deadline cancel s := ⟨hlt, hset⟩
          have hpolled : c.Advances (c.inquiry (.str token)) s (c.polled (.str token) others s) :=
            advances_exchange hopen haloof hscript _ _ _ _
          have hpoll : c.poll (.str token) others s =
              (c.polledAs (.str token) (answer s 0), c.polled (.str token) others s) :=
            poll_eq hopen haddress
          rw [pollUntil_of_due hdue, Op.bind_apply, hpoll]
          cases hanswer : c.polledAs (.str token) (answer s 0) with
          | error e =>
              have hkind := polledAs_kind (heeded_answer hscript) hanswer
              exact ⟨1, _, _, rfl, .one hdue hpolled rfl (.failed nofun hanswer hkind)⟩
          | ok response =>
              dsimp only
              cases hfinished : response.finished with
              | true =>
                  exact ⟨1, _, _, heed_of_final hfinished fuel,
                    .one hdue hpolled rfl (.final nofun hanswer hfinished)⟩
              | false =>
                  have hpending : c.Pending (.str token) (answer s 0) :=
                    ⟨response, hanswer, hfinished⟩
                  obtain ⟨hheed, hkept, hset⟩ | ⟨hheed, hlapse⟩ := heed_of_pending hfinished fuel
                  · refine ⟨1, _, _, hheed, .one hdue hpolled hkept (.cancelled ?_ rfl hset)⟩
                    rintro k hk
                    obtain rfl := Nat.lt_one_iff.mp hk
                    exact hpending
                  · -- The event is not set, and one answer less is left for the rest of the loop.
                    obtain ⟨htail, hopen'⟩ := hpolled.lapse hlapse
                    have hscript' :
                        Scripted.Orderly (c.lapse (.str token) cancel others s).remoteScript :=
                      htail ▸ hscript.tail
                    have hfuel' :
                        (c.lapse (.str token) cancel others s).remoteScript.length < fuel := by
                      have hpos := hpending.length_pos
                      rw [htail, List.length_tail]
                      omega
                    obtain ⟨n, u, result, hrest, hsettles⟩ := ih hopen' hscript' hfuel'
                    exact ⟨n + 1, u, result, hheed.trans hrest,
                      hsettles.round hdue hpending hpolled hlapse⟩

/-- A submission fails with a failure of the judge, or it gets a token. -/
theorem submittedAs_cases {ended : Option Ended} (hheeded : ended ≠ some .interrupt)
    (h : Acknowledges ended) :
    (∃ e, c.submittedAs ended = .error e ∧ e.kind = .remote) ∨
      ∃ token, c.submittedAs ended = .ok (.str token) ∧
        isAddress (statusPath (.str token)) = true := by
  unfold submittedAs
  cases hreading : c.reading "POST" "/submissions" ended with
  | error e => exact .inl ⟨e, rfl, reading_reported.mpr hheeded e hreading⟩
  | ok payload =>
      obtain ⟨fields, rfl, htoken⟩ := h payload (reading_eq_ok.mp hreading)
      dsimp only [Except.bind]
      obtain hnone | ⟨token, hlookup, haddress⟩ := htoken
      · exact .inl ⟨.remoteNoToken, by rw [if_pos hnone], rfl⟩
      · rw [hlookup, Option.getD_some]
        by_cases hempty : (Json.str token).isFalsy = true
        · exact .inl ⟨.remoteNoToken, by rw [if_pos hempty], rfl⟩
        · exact .inr ⟨token, by rw [if_neg hempty], haddress⟩

def Passed (deadline : Binary64) (moment : Int) : Prop :=
  ∀ ms, moment ≤ ms → (Binary64.ofMillis ms).lt deadline = false

theorem Settles.le (h : c.Settles token deadline cancel others s n u result) {m : Nat}
    (hm : Passed deadline (s.clock + m * c.pollInterval.toMillis)) : n ≤ m := by
  by_contra hlt
  have hlt : m < n := Nat.lt_of_not_le hlt
  exact absurd ((h.due hlt).1.symm.trans (hm _ (h.paced hlt))) nofun

theorem exists_passed (deadline : Binary64) (start : Int) {interval : Int} (h : 0 < interval) :
    ∃ m : Nat, Passed deadline (start + m * interval) := by
  obtain ⟨T, hT⟩ := Binary64.exists_reached deadline
  refine ⟨(T - start).toNat, fun ms hms => hT ms ?_⟩
  have hself : T - start ≤ (T - start).toNat := Int.self_le_toNat _
  have hmul : ((T - start).toNat : Int) * 1 ≤ (T - start).toNat * interval :=
    Int.mul_le_mul_of_nonneg_left h (Int.natCast_nonneg _)
  omega

theorem execute_of_submitted {source stdin : String} {expected : Option String}
    {polled : Except Failure Polled} (hsubmit : c.submit source stdin expected others s =
      (.ok (.str token), t)) (maxWait : Binary64)
    (hpolls : c.pollUntil (.str token) ((Binary64.ofMillis t.clock).add maxWait) cancel
      (t.remoteScript.length + 2) others t = (polled, u)) :
    c.execute source stdin expected maxWait cancel others s = (polled.map (·.given token), u) := by
  have hnow : now.Does t t.clock t := Op.does_view _
  have hfuel : (Op.view fun s => s.remoteScript.length + 2).Does t (t.remoteScript.length + 2) t :=
    Op.does_view _
  refine (Op.bind_of_eq_ok hsubmit _).trans ((hnow.step _ others).trans
    ((hfuel.step _ others).trans ?_))
  rw [Op.bind_apply, hpolls]
  rcases polled with e | (r | _ | _ | _) <;> rfl

/-- An execution at the judge submits once. If that fails, so does the execution. If not, it polls
what it has submitted and nothing else, and comes to what the first answer says that is not pending,
unless the event or the deadline comes first; and it comes to an end. -/
theorem execute_settles (hopen : c.IsOpen s) (haloof : others.Aloof c)
    (hscript : Scripted.Orderly s.remoteScript) (hack : Acknowledges (answer s 0))
    (hinterval : 0 < c.pollInterval.toMillis) (source stdin : String) (expected : Option String)
    (maxWait : Binary64) (cancel : Cancel) :
    (∃ e u, c.execute source stdin expected maxWait cancel others s = (.error e, u) ∧
      c.submittedAs (answer s 0) = .error e ∧ e.kind = .remote ∧
      u.remoteRequests = s.remoteRequests ++ [c.submission source stdin expected]) ∨
    ∃ token t n u result,
      c.submit source stdin expected others s = (.ok (.str token), t) ∧
      c.submittedAs (answer s 0) = .ok (.str token) ∧
      t.remoteScript = s.remoteScript.tail ∧
      t.remoteRequests = s.remoteRequests ++ [c.submission source stdin expected] ∧
      c.execute source stdin expected maxWait cancel others s = (result, u) ∧
      let deadline := (Binary64.ofMillis t.clock).add maxWait
      c.Settles token deadline cancel others t n u result ∧
        (∃ m : Nat, Passed deadline (t.clock + m * c.pollInterval.toMillis)) ∧
        ∀ m : Nat, Passed deadline (t.clock + m * c.pollInterval.toMillis) → n ≤ m := by
  obtain ⟨t, hsubmit, ht⟩ : ∃ t, c.submit source stdin expected others s =
      (c.submittedAs (answer s 0), t) ∧ t = _ := submit_eq hopen source stdin expected
  have hsent : c.Advances (c.submission source stdin expected) s t := by
    rw [ht]
    exact advances_exchange hopen haloof hscript _ _ _ _
  obtain ⟨e, hfails, hkind⟩ | ⟨token, hgot, haddress⟩ :=
    c.submittedAs_cases (heeded_answer hscript) hack
  · rw [hfails] at hsubmit
    refine .inl ⟨e, t, ?_, hfails, hkind, hsent.requests⟩
    rw [execute, Op.bind_apply, hsubmit]
  · rw [hgot] at hsubmit
    have hscript' : Scripted.Orderly t.remoteScript := hsent.script ▸ hscript.tail
    obtain ⟨n, u, polled, hpolls, hsettles⟩ := pollUntil_settles hsent.isOpen haloof hscript'
      haddress ((Binary64.ofMillis t.clock).add maxWait) cancel
      (Nat.lt_add_of_pos_right (Nat.zero_lt_two))
    exact .inr ⟨token, t, n, u, _, hsubmit, hgot, hsent.script, hsent.requests,
      execute_of_submitted hsubmit maxWait hpolls, hsettles,
      exists_passed _ _ hinterval, fun m => hsettles.le⟩

/-- A judge that says after five seconds what has become of a program. -/
def slow : Sandbox :=
  { Sandbox.usual with remoteScript := [
      { ended := some (.answer 201 (.json (.obj [("token", .str "t")]))) },
      { ended := some (.answer 200 (.json (.obj [("status", .obj [("id", .int 2)])]))) },
      { took := 5000
        ended := some (.answer 200 (.json (.obj [("status", .obj [("id", .int 3)])]))) }] }

theorem slow_orderly : Scripted.Orderly slow.remoteScript := by
  simp [Scripted.Orderly, slow]

theorem slow_acknowledges : Acknowledges (answer slow 0) := by
  intro j hj
  obtain rfl := Option.some.inj hj
  exact ⟨_, rfl, .inr ⟨"t", rfl, by decide +kernel⟩⟩

/-- What the judge says counts, though the client has only waited for one second. -/
theorem execute_settles_slow :
    let c : RemoteClient := { baseUrl := "https://judge", pollInterval := .ofMillis 500 }
    let alone : Interrupts := fun _ s => s
    ∃ token t u response,
      c.execute "" "" none (.ofInt 1) .noEvent alone slow = (.ok (some response), u) ∧
      response.status.id = 3 ∧ u.clock = 5500 ∧ t.clock = 0 ∧
      c.Settles token ((Binary64.ofMillis t.clock).add (.ofInt 1)) .noEvent alone t 2 u
        (.ok (some response)) := by
  intro c alone
  have hinterval : 0 < c.pollInterval.toMillis := by decide +kernel
  have hsubmitted : (c.submit "" "" none alone slow).2.clock = 0 := by decide +kernel
  have hexecuted : ∃ response u, c.execute "" "" none (.ofInt 1) .noEvent alone slow =
      (.ok (some response), u) ∧ response.status.id = 3 ∧ u.clock = 5500 ∧
      u.remoteRequests.length = 3 := by
    have heval : (c.execute "" "" none (.ofInt 1) .noEvent alone slow).1.toOption.map
          (·.map (·.status.id)) = some (some 3) ∧
        (c.execute "" "" none (.ofInt 1) .noEvent alone slow).2.clock = 5500 ∧
        (c.execute "" "" none (.ofInt 1) .noEvent alone slow).2.remoteRequests.length = 3 := by
      decide +kernel
    generalize c.execute "" "" none (.ofInt 1) .noEvent alone slow = run at heval ⊢
    obtain ⟨hanswer, hclock, hthree⟩ := heval
    obtain ⟨e | (_ | response), u⟩ := run
    · cases hanswer
    · cases hanswer
    · exact ⟨response, u, rfl, Option.some.inj (Option.some.inj hanswer), hclock, hthree⟩
  obtain ⟨response, u, hrun, hid, hclock, hthree⟩ := hexecuted
  have hopen : c.IsOpen slow := rfl
  have haloof : alone.Aloof c :=
    ⟨fun _ _ => Int.le_refl _, fun _ _ => rfl, fun _ _ => rfl, fun _ h => h⟩
  obtain ⟨e, v, hfails, -⟩ | ⟨token, t, n, v, result, hsubmit, -, -, hsent, hends, hsettles, -⟩ :=
    execute_settles hopen haloof slow_orderly slow_acknowledges hinterval "" "" none (.ofInt 1)
      .noEvent
  · cases hrun.symm.trans hfails
  · obtain ⟨rfl, rfl⟩ := Prod.mk.inj (hrun.symm.trans hends)
    rw [hsubmit] at hsubmitted
    have htwo : n = 2 := by
      have hlength := congrArg List.length hsettles.requests
      rw [hthree, hsent, List.length_append, List.length_append, List.length_replicate] at hlength
      have hnone : slow.remoteRequests.length = 0 := rfl
      rw [hnone, List.length_singleton] at hlength
      omega
    subst htwo
    exact ⟨token, t, u, response, hrun, hid, hclock, hsubmitted, hsettles⟩

end RemoteClient

end Rerun
