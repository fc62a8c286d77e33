import Rerun.Proofs.Sandbox.Logs
import Rerun.Proofs.Sandbox.Sweeps
import Rerun.Proofs.Session.Routes

/-!
What the log of a session key tells (`Chronicle`): one session of the key after the other, each with
its entries, and of the last one perhaps no end. Starting a session, noting an entry and taking the
session down each go one step on in the chronicle of their key and leave those of all other keys
alone; so whatever clients do of that, in every state each key has a chronicle
(`Sandbox.Chronicled`), and it is open exactly while the key is registered.
-/

namespace Rerun

open Sandbox Op

/-! ### Chronicles -/

namespace Journal

def started : Json := .str "session_started"

def execution : Json := .str "execution"

def stopped : Json := .str "session_stopped"

/-- What a line of a journal says has happened. -/
def event (line : Json) : Json := (line.field? "event").getD .null

def eventOf (entry : List (String × Json)) : Json := (entry.lookup "event").getD execution

/-- Events under which entries are noted: none of those that begin or end a session. -/
structure Vocabulary where
  allows : Json → Bool
  execution : allows Journal.execution = true
  started : allows Journal.started = false
  stopped : allows Journal.stopped = false

/-- The one event of an execution, as it is noted unless an entry names another. -/
def Vocabulary.strict : Vocabulary where
  allows e := e.str? = some "execution"
  execution := rfl
  started := rfl
  stopped := rfl

end Journal

open Journal (Vocabulary)

/-- The sessions of a key one after the other, each by the events of its entries: those that were
stopped, and the one that goes on, if there is one. -/
structure Chronicle where
  closed : List (List Json) := []
  opened : Option (List Json) := none

namespace Chronicle

variable {c : Chronicle} {es : List Json} {e : Json} {v : Vocabulary}

def block (es : List Json) : List Json := Journal.started :: es ++ [Journal.stopped]

def events (c : Chronicle) : List Json :=
  c.closed.flatMap block ++ c.opened.elim [] (Journal.started :: ·)

/-- The events of the entries since a session was last started, if one ever was. -/
def latest (c : Chronicle) : Option (List Json) := c.opened.or c.closed.getLast?

/-- Only events of a vocabulary are noted. -/
def Within (v : Vocabulary) (c : Chronicle) : Prop :=
  ∀ es ∈ c.closed ++ c.opened.toList, ∀ e ∈ es, v.allows e = true

def opening (c : Chronicle) : Chronicle := { c with opened := some [] }

def noting (c : Chronicle) (e : Json) : Chronicle := { c with opened := c.opened.map (· ++ [e]) }

/-- The session is stopped. -/
def closing (c : Chronicle) : Chronicle := ⟨c.closed ++ c.opened.toList, none⟩

theorem events_opening (h : c.opened = none) :
    c.opening.events = c.events ++ [Journal.started] := by
  simp [events, opening, h]

theorem events_noting (h : c.opened = some es) : (c.noting e).events = c.events ++ [e] := by
  simp [events, noting, h]

theorem events_closing (h : c.opened = some es) :
    c.closing.events = c.events ++ [Journal.stopped] := by
  simp [events, closing, h, block]

theorem latest_of_opened (h : c.opened = some es) : c.latest = some es := by
  rw [latest, h, Option.some_or]

theorem latest_closing (h : c.opened = some es) : c.closing.latest = some es := by
  simp [latest, closing, h]

theorem Within.opening (h : c.Within v) : c.opening.Within v := by
  intro es hes e he
  simp only [Chronicle.opening, Option.toList_some, List.mem_append, List.mem_singleton] at hes
  obtain hes | rfl := hes
  · exact h es (List.mem_append_left _ hes) e he
  · exact absurd he List.not_mem_nil

theorem Within.noting (h : c.Within v) (hopened : c.opened = some es)
    (he : v.allows e = true) : (c.noting e).Within v := by
  intro fs hfs e' he'
  simp only [Chronicle.noting, hopened, Option.map_some, Option.toList_some, List.mem_append,
    List.mem_singleton] at hfs
  obtain hfs | rfl := hfs
  · exact h fs (List.mem_append_left _ hfs) e' he'
  · obtain he' | he' := List.mem_append.mp he'
    · refine h es (List.mem_append_right _ ?_) e' he'
      rw [hopened]
      exact List.mem_singleton_self es
    · exact List.mem_singleton.mp he' ▸ he

theorem Within.closing (h : c.Within v) : c.closing.Within v := by
  intro es hes
  simp only [Chronicle.closing, Option.toList_none, List.append_nil] at hes
  exact h es hes

theorem allows_getLast (h : c.Within v) (hopened : c.opened = some es)
    (hlast : c.events.getLast? = some e) : e = Journal.started ∨ v.allows e = true := by
  rw [events, hopened, Option.elim_some, List.getLast?_append] at hlast
  cases hes : (Journal.started :: es).getLast? with
  | none => exact absurd (List.getLast?_eq_none_iff.mp hes) (List.cons_ne_nil _ _)
  | some e' =>
      rw [hes, Option.some_or] at hlast
      obtain rfl := Option.some.inj hlast
      obtain rfl | he := List.mem_cons.mp (List.mem_of_getLast? hes)
      · exact .inl rfl
      · refine .inr (h es (List.mem_append_right _ ?_) _ he)
        rw [hopened]
        exact List.mem_singleton_self es

end Chronicle

/-! ### What is written of a key -/

namespace Sandbox

variable {s t : Sandbox} {key : String} {v : Vocabulary} {c : Chronicle}

def folderAt (s : Sandbox) (key : String) : Path := s.setup.sessionRoot.resolve key

def events (s : Sandbox) (key : String) : List Json :=
  (s.folders.journal (s.folderAt key)).map Journal.event

def executionCount (s : Sandbox) (key : String) : Option Json :=
  (s.folders.metadata (s.folderAt key)).bind fun file =>
    file.bind (·.field? "execution_count")

/-- How many executions the registered session of a key has, if there is one. -/
def executionsOf (s : Sandbox) (key : String) : Option Nat :=
  (s.sessions.lookup key).bind fun r => s.records[r]?.map (·.executions)

/-- The metadata is an object in which so many executions are counted. -/
def Counts (file : Option (Option Json)) (n : Nat) : Prop :=
  ∃ fields, file = some (some (.obj fields)) ∧ fields.lookup "execution_count" = some (.int n)

/-- The metadata of a key, by the entries of its last session: there is none before the first. -/
def CountsLatest (file : Option (Option Json)) : Option (List Json) → Prop
  | none => file = none
  | some es => Counts file es.length

/-- The log of a key tells a chronicle, and its last session is open exactly while it is
registered. -/
structure Tells (s : Sandbox) (key : String) (c : Chronicle) : Prop where
  events : s.events key = c.events
  executions : s.executionsOf key = c.opened.map List.length
  metadata : CountsLatest (s.folders.metadata (s.folderAt key)) c.latest

/-- Logs are kept, the keys of sessions are names of folders, every session has a record of its own
and the folder that its key names, and the log of every name tells a chronicle. -/
structure Chronicled (v : Vocabulary) (s : Sandbox) : Prop where
  keeps : s.setup.keepLogs = true
  session {k : String} {r : Nat} : s.sessions.lookup k = some r →
    Path.IsName k ∧ ∃ x, s.records[r]? = some x ∧ x.folder = s.folderAt k
  single {k k' : String} {r : Nat} :
    s.sessions.lookup k = some r → s.sessions.lookup k' = some r → k = k'
  told {k : String} : Path.IsName k → ∃ c : Chronicle, c.Within v ∧ s.Tells k c

structure SameBut (key : String) (s t : Sandbox) : Prop where
  setup : t.setup = s.setup
  session {k : String} : k ≠ key → t.sessions.lookup k = s.sessions.lookup k
  record {k : String} {r : Nat} {x : Record} : k ≠ key → s.sessions.lookup k = some r →
    s.records[r]? = some x → ∃ y, t.records[r]? = some y ∧ y.folder = x.folder ∧
      y.executions = x.executions
  files {q : Path} : q ≠ s.folderAt key → t.folders.journal q = s.folders.journal q ∧
    t.folders.metadata q = s.folders.metadata q

theorem Chronicled.executionsOf_eq (h : s.Chronicled v) {k : String}
    (hsession : t.sessions.lookup k = s.sessions.lookup k)
    (hrecord : ∀ r x, s.sessions.lookup k = some r → s.records[r]? = some x →
      ∃ y, t.records[r]? = some y ∧ y.folder = x.folder ∧ y.executions = x.executions) :
    t.executionsOf k = s.executionsOf k := by
  rw [executionsOf, executionsOf, hsession]
  cases hr : s.sessions.lookup k with
  | none => rfl
  | some r =>
      obtain ⟨-, x, hx, -⟩ := h.session hr
      obtain ⟨y, hy, -, hcount⟩ := hrecord r x hr hx
      simp [hx, hy, hcount]

/-- What holds of the logs goes on to hold when one more step is told of one key. -/
theorem Chronicled.step (h : s.Chronicled v) (hkey : Path.IsName key) (hbut : SameBut key s t)
    (hsession : ∀ r, t.sessions.lookup key = some r →
      (∃ x, t.records[r]? = some x ∧ x.folder = s.folderAt key) ∧
      ∀ k, k ≠ key → s.sessions.lookup k ≠ some r)
    (hc : c.Within v) (htells : t.Tells key c) : t.Chronicled v where
  keeps := by
    rw [hbut.setup]
    exact h.keeps
  session {k r} hr := by
    rw [folderAt, hbut.setup]
    by_cases hk : k = key
    · subst hk
      exact ⟨hkey, (hsession r hr).1⟩
    · rw [hbut.session hk] at hr
      obtain ⟨hname, x, hx, hfolder⟩ := h.session hr
      obtain ⟨y, hy, hfolder', -⟩ := hbut.record hk hr hx
      exact ⟨hname, y, hy, hfolder'.trans hfolder⟩
  single {k k' r} hr hr' := by
    by_cases hk : k = key <;> by_cases hk' : k' = key
    · rw [hk, hk']
    · subst hk
      rw [hbut.session hk'] at hr'
      exact absurd hr' ((hsession r hr).2 k' hk')
    · subst hk'
      rw [hbut.session hk] at hr
      exact absurd hr ((hsession r hr').2 k hk)
    · rw [hbut.session hk] at hr
      rw [hbut.session hk'] at hr'
      exact h.single hr hr'
  told {k} hk := by
    by_cases hkk : k = key
    · subst hkk
      exact ⟨c, hc, htells⟩
    · obtain ⟨c, hc, htells⟩ := h.told hk
      have hfolder : t.folderAt k = s.folderAt k := by rw [folderAt, hbut.setup, folderAt]
      have hne : s.folderAt k ≠ s.folderAt key :=
        fun heq => hkk (Path.resolve_name_inj _ hk hkey heq)
      obtain ⟨hjournal, hmetadata⟩ := hbut.files hne
      refine ⟨c, hc, ?_, ?_, ?_⟩
      · rw [Sandbox.events, hfolder, hjournal]
        exact htells.events
      · rw [h.executionsOf_eq (hbut.session hkk) fun r x => hbut.record hkk]
        exact htells.executions
      · rw [hfolder, hmetadata]
        exact htells.metadata

theorem Chronicled.sameLogs (h : s.Chronicled v) (hst : s.SameLogs t) : t.Chronicled v where
  keeps := by
    rw [hst.setup]
    exact h.keeps
  session {k r} hr := by
    rw [hst.sessions] at hr
    obtain ⟨hname, x, hx, hfolder⟩ := h.session hr
    obtain ⟨y, hy, hfolder', -⟩ := hst.record hx
    rw [folderAt, hst.setup]
    exact ⟨hname, y, hy, hfolder'.trans hfolder⟩
  single hr hr' := by
    rw [hst.sessions] at hr hr'
    exact h.single hr hr'
  told {k} hk := by
    obtain ⟨c, hc, htells⟩ := h.told hk
    have hfolder : t.folderAt k = s.folderAt k := by rw [folderAt, hst.setup, folderAt]
    obtain ⟨hjournal, hmetadata⟩ := hst.files (s.folderAt k)
    refine ⟨c, hc, ?_, ?_, ?_⟩
    · rw [Sandbox.events, hfolder, hjournal]
      exact htells.events
    · rw [h.executionsOf_eq (congrArg (List.lookup k) hst.sessions) fun _ _ _ => hst.record]
      exact htells.executions
    · rw [hfolder, hmetadata]
      exact htells.metadata

theorem Chronicled.carries {α : Type} {x : Op α} (h : x.Unlogged) : x.Carries (Chronicled v) :=
  h.mono fun _ _ hst hs => hs.sameLogs hst

end Sandbox

/-! ### Writing to the files of a session -/

namespace Registry

variable {s : Sandbox} {key : String} {r : Nat} {x : Record}

/-- An entry as it is written: at the time it names, or at the present time. -/
def stamped (clock : Int) (entry : List (String × Json)) : Json :=
  .obj (if (entry.lookup "timestamp").isSome then entry
    else Assoc.put entry "timestamp" (timeText clock))

theorem event_stamped (clock : Int) {entry : List (String × Json)} {e : Json}
    (h : entry.lookup "event" = some e) : Journal.event (stamped clock entry) = e := by
  unfold stamped Journal.event
  split
  · rw [Json.field?, h, Option.getD_some]
  · rw [Json.field?, Assoc.lookup_put_of_ne _ _ (by decide), h, Option.getD_some]

/-- A line that is written in the journal of a session, and nowhere else. -/
theorem does_writeJournal_line (hlogs : s.setup.keepLogs = true)
    (hr : s.sessions.lookup key = some r) (hx : s.records[r]? = some x)
    (entry : List (String × Json)) :
    ∃ fs, (writeJournal key entry).Does s () { s with folders := fs } ∧
      fs.journal x.folder = s.folders.journal x.folder ++ [stamped s.clock entry] ∧
      (∀ q, fs.metadata q = s.folders.metadata q) ∧
      ∀ q, q ≠ x.folder → fs.journal q = s.folders.journal q := by
  refine ⟨_, fun others => ?_, s.folders.journal_revise_self x.folder (stamped s.clock entry),
    fun q => s.folders.metadata_revise _ q fun _ => rfl,
    fun q hq => (s.folders.files_revise_of_ne _ hq).1⟩
  have hrecord : (record r).Does s x s := does_need hx
  rw [writeJournal, (does_view _).step]
  simp only [id, hlogs, Bool.not_true, Bool.false_eq_true, if_false, find?, hr]
  rw [hrecord.step]
  rfl

/-- Fields that are put over those of a metadata file, if there is one. -/
def mergedFields : Option (List (String × Json)) → List (String × Json) → List (String × Json)
  | none, fields => fields
  | some before, fields => fields.foldl (fun fs f => Assoc.put fs f.1 f.2) before

/-- Fields that are written in the metadata of a session, and nowhere else. -/
theorem does_writeMetadata_fields (hlogs : s.setup.keepLogs = true)
    (hr : s.sessions.lookup key = some r) (hx : s.records[r]? = some x)
    {before : Option (List (String × Json))}
    (hfile : s.folders.metadata x.folder = before.map fun fields => some (.obj fields))
    (fields : List (String × Json)) :
    ∃ fs, (writeMetadata key fields).Does s () { s with folders := fs } ∧
      fs.metadata x.folder = some (some (.obj (mergedFields before fields))) ∧
      (∀ q, fs.journal q = s.folders.journal q) ∧
      ∀ q, q ≠ x.folder → fs.metadata q = s.folders.metadata q := by
  refine ⟨_, fun others => ?_,
    s.folders.metadata_revise_self x.folder (.obj (mergedFields before fields)),
    fun q => s.folders.journal_revise _ q fun _ => rfl,
    fun q hq => (s.folders.files_revise_of_ne _ hq).2⟩
  have hrecord : (record r).Does s x s := does_need hx
  have hmerged : mergeMetadata (s.folders.metadata x.folder) fields =
      .ok (.obj (mergedFields before fields)) := by
    rw [hfile]
    cases before <;> rfl
  rw [Folders.metadata] at hmerged
  rw [writeMetadata, (does_view _).step]
  simp only [id, hlogs, Bool.not_true, Bool.false_eq_true, if_false, find?, hr]
  rw [hrecord.step, hmerged]
  rfl

/-- A line was added to the journal in a folder, whose metadata is of these fields now. The files of
other folders are as they were. -/
structure Written (p : Path) (line : Json) (fields : List (String × Json)) (fs gs : Folders) :
    Prop where
  line : gs.journal p = fs.journal p ++ [line]
  metadata : gs.metadata p = some (some (.obj fields))
  elsewhere {q : Path} : q ≠ p → gs.journal q = fs.journal q ∧ gs.metadata q = fs.metadata q

theorem does_line_fields (hlogs : s.setup.keepLogs = true) (hr : s.sessions.lookup key = some r)
    (hx : s.records[r]? = some x) {before : List (String × Json)}
    (hfile : s.folders.metadata x.folder = some (some (.obj before)))
    (entry fields : List (String × Json)) :
    ∃ fs gs, (writeJournal key entry).Does s () { s with folders := fs } ∧
      (writeMetadata key fields).Does { s with folders := fs } () { s with folders := gs } ∧
      Written x.folder (stamped s.clock entry) (mergedFields (some before) fields)
        s.folders gs := by
  obtain ⟨fs, hjournal, hline, hfile₁, helse⟩ := does_writeJournal_line hlogs hr hx entry
  have hbefore : fs.metadata x.folder =
      (some before).map fun fields => some (.obj fields) := (hfile₁ _).trans hfile
  obtain ⟨gs, hmetadata, hfile₂, hline', helse'⟩ :=
    does_writeMetadata_fields (s := { s with folders := fs }) hlogs hr hx hbefore fields
  exact ⟨fs, gs, hjournal, hmetadata, (hline' _).trans hline, hfile₂,
    fun hq => ⟨(hline' _).trans (helse _ hq), (helse' _ hq).trans (hfile₁ _)⟩⟩

theorem does_fields_line (hlogs : s.setup.keepLogs = true) (hr : s.sessions.lookup key = some r)
    (hx : s.records[r]? = some x) {before : Option (List (String × Json))}
    (hfile : s.folders.metadata x.folder = before.map fun fields => some (.obj fields))
    (fields entry : List (String × Json)) :
    ∃ fs gs, (writeMetadata key fields).Does s () { s with folders := fs } ∧
      (writeJournal key entry).Does { s with folders := fs } () { s with folders := gs } ∧
      Written x.folder (stamped s.clock entry) (mergedFields before fields) s.folders gs := by
  obtain ⟨fs, hmetadata, hfile₁, hline, helse⟩ :=
    does_writeMetadata_fields hlogs hr hx hfile fields
  obtain ⟨gs, hjournal, hline', hfile₂, helse'⟩ :=
    does_writeJournal_line (s := { s with folders := fs }) hlogs hr hx entry
  exact ⟨fs, gs, hmetadata, hjournal, hline'.trans (congrArg (· ++ _) (hline _)),
    (hfile₂ _).trans hfile₁,
    fun hq => ⟨(helse' _ hq).trans (hline _), (hfile₂ _).trans (helse _ hq)⟩⟩

theorem Written.events {entry fields : List (String × Json)} {e : Json} {t : Sandbox}
    (h : Written (s.folderAt key) (stamped s.clock entry) fields s.folders t.folders)
    (hsetup : t.setup = s.setup) (hevent : entry.lookup "event" = some e) :
    t.events key = s.events key ++ [e] := by
  have hfolder : t.folderAt key = s.folderAt key := by rw [folderAt, hsetup, folderAt]
  rw [Sandbox.events, hfolder, h.line, List.map_append, List.map_singleton,
    event_stamped _ hevent, Sandbox.events]

/-! ### Steps of a chronicle -/

variable {v : Vocabulary} {others : Interrupts}

theorem counts_of_tells {c : Chronicle} (htells : s.Tells key c) {es : List Json}
    (hopened : c.opened = some es) : Counts (s.folders.metadata (s.folderAt key)) es.length := by
  have hmetadata := htells.metadata
  rw [Chronicle.latest_of_opened hopened] at hmetadata
  exact hmetadata

/-- A registered session, its record and its chronicle, in which it goes on. -/
theorem chronicle_of_registered (hs : s.Chronicled v) (hr : s.sessions.lookup key = some r) :
    Path.IsName key ∧ ∃ x c es, s.records[r]? = some x ∧ x.folder = s.folderAt key ∧
      c.Within v ∧ s.Tells key c ∧ c.opened = some es ∧ es.length = x.executions := by
  obtain ⟨hname, x, hx, hfolder⟩ := hs.session hr
  obtain ⟨c, hc, htells⟩ := hs.told hname
  have hcount := htells.executions
  simp only [executionsOf, hr, Option.bind_some, hx, Option.map_some] at hcount
  obtain ⟨es, hes, hlength⟩ := Option.map_eq_some_iff.mp hcount.symm
  exact ⟨hname, x, c, es, hx, hfolder, hc, htells, hes, hlength⟩

/-- What is done with a session that is registered no longer. -/
def dismantle (x : Record) : Op Unit := do
  Interpreter.reset x.handle
  if ← Op.view (!·.setup.keepLogs) then
    Op.change fun s => { s with folders := s.folders.remove x.folder }
  else pure ()

theorem sameLogs_dismantle (hlogs : s.setup.keepLogs = true) (x : Record) (others : Interrupts) :
    s.SameLogs (dismantle x others s).2 := by
  have hreset := (pervades_unlogged.reset x.handle).holds others s
  rw [dismantle, bind_apply]
  rcases hr : Interpreter.reset x.handle others s with ⟨e | _, t⟩ <;> rw [hr] at hreset
  · exact hreset
  · have hkeeps : t.setup.keepLogs = true := by rw [hreset.setup, hlogs]
    dsimp only
    rw [(does_view _).step, hkeeps]
    exact hreset

/-- A registered session is written down as stopped, and from then on its key is free. -/
theorem reset_eq_dismantle (hs : s.Chronicled v) (hr : s.sessions.lookup key = some r) :
    ∃ x t, t.Chronicled v ∧ t.sessions.lookup key = none ∧
      ∀ others, reset key others s = dismantle x others t := by
  obtain ⟨hname, x, c, es, hx, hfolder, hc, htells, hopened, hlength⟩ :=
    chronicle_of_registered hs hr
  obtain ⟨fields, hfile, hcount⟩ := counts_of_tells htells hopened
  rw [← hfolder] at hfile
  obtain ⟨fs, gs, hjournal, hmetadata, hwritten⟩ := does_line_fields hs.keeps hr hx hfile
    [("event", Journal.stopped)]
    [("stopped_at", timeText s.clock), ("final_execution_count", .int x.executions)]
  rw [hfolder] at hwritten
  have hdropped : (Assoc.drop s.sessions key).lookup key = none := Assoc.lookup_drop_self _ _
  refine ⟨x, { s with folders := gs, sessions := Assoc.drop s.sessions key },
    hs.step (c := c.closing) hname ?_ ?_ hc.closing ⟨?_, ?_, ?_⟩, hdropped, fun others => ?_⟩
  · exact ⟨rfl, fun hk => Assoc.lookup_drop_of_ne _ hk, fun _ _ hy => ⟨_, hy, rfl, rfl⟩,
      hwritten.elsewhere⟩
  · exact fun r' hr' => absurd (hdropped.symm.trans hr') nofun
  · rw [Chronicle.events_closing hopened, ← htells.events]
    exact hwritten.events rfl rfl
  · rw [executionsOf, hdropped]
    rfl
  · rw [Chronicle.latest_closing hopened]
    -- Neither of the fields that are put over the file is the count.
    have hfinal : "execution_count" ≠ "final_execution_count" := by decide
    have hstopped : "execution_count" ≠ "stopped_at" := by decide
    exact ⟨_, hwritten.metadata, (Assoc.lookup_put_of_ne _ _ hfinal).trans
      ((Assoc.lookup_put_of_ne _ _ hstopped).trans hcount)⟩
  · have hrecord {fs : Folders} : (record r).Does { s with folders := fs } x
        { s with folders := fs } := does_need hx
    rw [reset, (does_view _).step]
    simp only [find?, hr]
    exact (hjournal.step _ others).trans ((hrecord.step _ others).trans
      (((does_view _).step _ others).trans ((hmetadata.step _ others).trans
        ((does_change _).step _ others))))

/-- A teardown stops the session of a key, if there is one, and the key is free then. -/
theorem chronicled_reset (hs : s.Chronicled v) (key : String) (others : Interrupts) :
    (reset key others s).2.Chronicled v ∧ (reset key others s).2.sessions.lookup key = none := by
  cases hr : s.sessions.lookup key with
  | none =>
      have hstill : reset key others s = (.ok (), s) := by
        rw [reset, (does_view _).step]
        simp only [find?, hr]
        rfl
      rw [hstill]
      exact ⟨hs, hr⟩
  | some r =>
      obtain ⟨x, t, ht, hnone, hreset⟩ := reset_eq_dismantle hs hr
      have hsame := sameLogs_dismantle ht.keeps x others
      rw [hreset]
      exact ⟨ht.sameLogs hsame, by rw [hsame.sessions, hnone]⟩

/-- The chronicle of a key without a session, of which the last session is over. -/
theorem chronicle_of_free (hs : s.Chronicled v) (hname : Path.IsName key)
    (hnone : s.sessions.lookup key = none) :
    ∃ c before, c.Within v ∧ s.Tells key c ∧ c.opened = none ∧
      s.folders.metadata (s.folderAt key) =
      Option.map (fun fields => some (.obj fields)) before := by
  obtain ⟨c, hc, htells⟩ := hs.told hname
  have hopened : c.opened = none := by
    have hcount := htells.executions
    rw [executionsOf, hnone] at hcount
    exact Option.map_eq_none_iff.mp hcount.symm
  have hmetadata := htells.metadata
  cases hlatest : c.latest with
  | none =>
      rw [hlatest] at hmetadata
      exact ⟨c, none, hc, htells, hopened, hmetadata⟩
  | some es =>
      rw [hlatest] at hmetadata
      obtain ⟨fields, hfile, -⟩ := hmetadata
      exact ⟨c, some fields, hc, htells, hopened, hfile⟩

/-- A session of a free key is written down as started, with no executions. -/
theorem chronicled_enter (hs : s.Chronicled v) (hname : Path.IsName key)
    (hnone : s.sessions.lookup key = none) (others : Interrupts) :
    (enter key others s).2.Chronicled v := by
  have hsame := (pervades_unlogged.startSession key).holds others s
  rcases hstart : start key others s with ⟨e | r, t⟩ <;> rw [hstart] at hsame
  · have hfailed : enter key others s = (.error e, t) := by
      rw [enter, bind_apply, register, bind_apply, hstart]
    rw [hfailed]
    exact hs.sameLogs hsame
  obtain ⟨rfl, x, hrecords, hfolder, -⟩ := start_eq_ok hstart
  have ht := hs.sameLogs hsame
  have hx : t.records[s.records.length]? = some x := by
    rw [hrecords, List.getElem?_concat_length]
  have hcount : x.executions = 0 := hsame.fresh (List.getElem?_eq_none (Nat.le_refl _)) hx
  have hfolder : x.folder = t.folderAt key := by
    unfold folderOf at hfolder
    split at hfolder
    · exact absurd hfolder nofun
    · rw [folderAt, hsame.setup, ← Except.ok.inj hfolder]
  have hnew (k : String) : t.sessions.lookup k ≠ some s.records.length := by
    rw [hsame.sessions]
    intro hk
    obtain ⟨-, y, hy, -⟩ := hs.session hk
    exact absurd (List.getElem?_eq_some_iff.mp hy).1 (Nat.lt_irrefl _)
  rw [← hsame.sessions] at hnone
  obtain ⟨c, before, hc, htells, hopened, hfile⟩ := chronicle_of_free ht hname hnone
  rw [← hfolder] at hfile
  -- The session is registered, and then its metadata and its first line are written.
  have hput : (Assoc.put t.sessions key s.records.length).lookup key = some s.records.length :=
    Assoc.lookup_put_self _ _ _
  obtain ⟨fs, gs, hmetadata, hjournal, hwritten⟩ := does_fields_line
    (s := { t with sessions := Assoc.put t.sessions key s.records.length }) ht.keeps hput hx hfile
    [("session_id", .str key), ("created_at", timeText t.clock),
      ("session_dir", .str x.folder.text), ("execution_count", .int 0),
      ("last_used", timeText t.clock)] [("event", Journal.started)]
  have hentered : enter key others s = (.ok (),
      { t with sessions := Assoc.put t.sessions key s.records.length, folders := gs }) := by
    have hregister : register key others s = (.ok s.records.length,
        { t with sessions := Assoc.put t.sessions key s.records.length }) := by
      rw [register, bind_of_eq_ok hstart]
      rfl
    rw [enter, bind_of_eq_ok hregister]
    exact ((does_need hx).step _ others).trans (((does_view _).step _ others).trans
      ((hmetadata.step _ others).trans (hjournal others)))
  rw [hfolder] at hwritten
  rw [hentered]
  refine ht.step (c := c.opening) hname ?_ ?_ hc.opening ⟨?_, ?_, ?_⟩
  · exact ⟨rfl, fun hk => Assoc.lookup_put_of_ne _ _ hk, fun _ _ hy => ⟨_, hy, rfl, rfl⟩,
      hwritten.elsewhere⟩
  · intro r hr
    obtain rfl := Option.some.inj (hput.symm.trans hr)
    exact ⟨⟨x, hx, hfolder⟩, fun k _ => hnew k⟩
  · rw [Chronicle.events_opening hopened, ← htells.events]
    exact hwritten.events rfl rfl
  · rw [executionsOf, hput, Option.bind_some, hx, Option.map_some, hcount]
    rfl
  · refine ⟨_, hwritten.metadata, ?_⟩
    have hlast : "execution_count" ≠ "last_used" := by decide
    cases before with
    | none => rfl
    | some fields => exact (Assoc.lookup_put_of_ne _ _ hlast).trans (Assoc.lookup_put_self _ _ _)

/-- An entry is noted in the log of a session that is registered, under an event that may be noted,
and the execution is counted. -/
theorem chronicled_note (hs : s.Chronicled v) (key : String) {entry : List (String × Json)}
    (hentry : v.allows (Journal.eventOf entry) = true) (others : Interrupts) :
    (note key (.obj entry) others s).2.Chronicled v := by
  cases hr : s.sessions.lookup key with
  | none =>
      have hstill : note key (.obj entry) others s = (.ok (), s) := by
        rw [note, (does_view _).step]
        simp only [find?, hr]
        rfl
      rw [hstill]
      exact hs
  | some r =>
      obtain ⟨hname, x, c, es, hx, hfolder, hc, htells, hopened, hlength⟩ :=
        chronicle_of_registered hs hr
      obtain ⟨fields, hfile, -⟩ := counts_of_tells htells hopened
      rw [← hfolder] at hfile
      have hcounted : (s.records.modify r fun x => { x with executions := x.executions + 1 })[r]? =
          some { x with executions := x.executions + 1 } :=
        Table.getElem?_modify_eq_some.mpr ⟨x, hx, by rw [if_pos rfl]⟩
      obtain ⟨fs, gs, hjournal, hmetadata, hwritten⟩ := does_line_fields (s := { s with
          records := s.records.modify r fun x => { x with executions := x.executions + 1 } })
        hs.keeps hr hcounted hfile (Assoc.put entry "event" (Journal.eventOf entry))
        [("execution_count", .int (x.executions + 1 : Nat)), ("last_used", timeText s.clock)]
      have hnoted : note key (.obj entry) others s = (.ok (), { s with
          records := s.records.modify r fun x => { x with executions := x.executions + 1 }
          folders := gs }) := by
        rw [note, (does_view _).step]
        simp only [find?, hr]
        exact ((does_change _).step _ others).trans ((hjournal.step _ others).trans
          (((does_need hcounted).step _ others).trans (((does_view _).step _ others).trans
            (hmetadata others))))
      have hes : (c.noting (Journal.eventOf entry)).opened =
          some (es ++ [Journal.eventOf entry]) := by
        rw [Chronicle.noting, hopened, Option.map_some]
      rw [hfolder] at hwritten
      rw [hnoted]
      refine hs.step (c := c.noting (Journal.eventOf entry)) hname ?_ ?_
        (hc.noting hopened hentry) ⟨?_, ?_, ?_⟩
      · refine ⟨rfl, fun _ => rfl, fun {k r' y} hk hr' hy => ?_, hwritten.elsewhere⟩
        have hne : r ≠ r' := fun heq => hk (hs.single (heq ▸ hr') hr)
        exact ⟨y, Table.getElem?_modify_eq_some.mpr ⟨y, hy, by rw [if_neg hne]⟩, rfl, rfl⟩
      · intro r' hr'
        obtain rfl := Option.some.inj (hr.symm.trans hr')
        exact ⟨⟨_, hcounted, hfolder⟩, fun k hk hrk => hk (hs.single hrk hr)⟩
      · rw [Chronicle.events_noting hopened, ← htells.events]
        exact hwritten.events rfl (Assoc.lookup_put_self _ _ _)
      · rw [executionsOf, hr, Option.bind_some, hcounted, Option.map_some, hes, Option.map_some,
          List.length_append, hlength]
        rfl
      · have hlast : "execution_count" ≠ "last_used" := by decide
        rw [Chronicle.latest_of_opened hes, CountsLatest, List.length_append, hlength]
        exact ⟨_, hwritten.metadata,
          (Assoc.lookup_put_of_ne _ _ hlast).trans (Assoc.lookup_put_self _ _ _)⟩

/-! ### Getting a session -/

theorem isName_anonymous (n : Nat) : Path.IsName ("anon-" ++ String.ofList
    ((String.ofList (Text.hexDigits 8 n ++ Text.hexDigits 4 0)).toList.take 8)) := by
  have hdigit : ∀ m < 16, Text.hexDigit m ≠ '/' := by decide
  have hhead : '/' ∉ "anon-".toList := by decide
  have hne {text : String} (htext : text.toList.length < 5) (digits : List Char) :
      "anon-" ++ String.ofList digits ≠ text := by
    rintro rfl
    rw [String.toList_append, List.length_append] at htext
    have hlength : "anon-".toList.length = 5 := by decide
    omega
  refine ⟨fun h => ?_, hne (by decide) _, hne (by decide) _, hne (by decide) _⟩
  rw [String.toList_append, List.mem_append] at h
  obtain h | h := h
  · exact hhead h
  · simp only [String.toList_ofList, List.take_left' (Text.length_hexDigits 8 n)] at h
    obtain ⟨m, hm, heq⟩ := Text.mem_hexDigits h
    exact hdigit m hm heq

/-- The key of a session is the one that is asked for, or the name that is drawn for it. -/
theorem isName_keyFor {key : Option String} (hkey : ∀ k, key = some k → k = "" ∨ Path.IsName k)
    {k : String} {t : Sandbox} (h : keyFor key others s = (.ok k, t)) : Path.IsName k := by
  have hanonymous : keyFor.anonymous others s = (.ok k, t) → Path.IsName k := by
    intro h
    obtain ⟨hk, -⟩ := Prod.mk.inj h
    exact Except.ok.inj hk ▸ isName_anonymous _
  unfold keyFor at h
  split at h
  · rename_i k'
    split at h
    · exact hanonymous h
    · obtain ⟨hk, -⟩ := Prod.mk.inj h
      obtain rfl := Except.ok.inj hk
      exact (hkey _ rfl).resolve_left ‹_›
  · exact hanonymous h

theorem carries_reset (key : String) : (reset key).Carries (Chronicled v) :=
  ⟨(pervades_recalls.resetSession key).deaf, fun others _ hs => (chronicled_reset hs key others).1⟩

/-- A session that can be used is left alone, and in the place of any other a new one is started. -/
theorem carries_provide (hname : Path.IsName key) : (provide key).Carries (Chronicled v) := by
  refine ⟨(pervades_recalls.provide key).deaf, fun others s hs => ?_⟩
  rw [provide, (does_view _).step]
  cases hr : find? s key with
  | none => exact chronicled_enter hs hname hr others
  | some r =>
      have husable := (Chronicled.carries (pervades_unlogged.usable r)).holds others s hs
      dsimp only
      rw [bind_apply]
      rcases hu : usable r others s with ⟨e | use, t⟩ <;> rw [hu] at husable
      · exact husable
      · dsimp only
        split
        · exact husable
        · obtain ⟨ht, hnone⟩ := chronicled_reset husable key others
          rw [bind_apply]
          rcases hreset : reset key others t with ⟨e | _, u⟩ <;> rw [hreset] at ht hnone
          · exact ht
          · exact chronicled_enter ht hname hnone others

theorem carries_sweep : (sweep Contexts.onSweep).Carries (Chronicled v) :=
  Along.chains.sweep carries_reset fun key => Chronicled.carries (Contexts.unlogged_onSweep key)

theorem carries_acquire {key : Option String} (hkey : ∀ k, key = some k → k = "" ∨ Path.IsName k) :
    (acquire Contexts.onSweep key).Carries (Chronicled v) := by
  refine .bind carries_sweep fun _ => ⟨?_, fun others s hs => ?_⟩
  · exact (Along.bind (pervades_recalls.keyFor .drawId key) fun key =>
      .bind (pervades_recalls.provide key) fun _ => .pure _).deaf
  · have hkeyFor := (Chronicled.carries (unlogged_keyFor key)).holds others s hs
    rw [bind_apply]
    rcases hk : keyFor key others s with ⟨e | k, t⟩ <;> rw [hk] at hkeyFor
    · exact hkeyFor
    · exact (Along.bind (carries_provide (isName_keyFor hkey hk)) fun _ => .pure _).holds others t
        hkeyFor

end Registry

end Rerun
