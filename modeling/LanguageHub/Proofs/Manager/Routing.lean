import LanguageHub.Proofs.Client.Publications
import LanguageHub.Proofs.Dictionary
import LanguageHub.Proofs.Language
import LanguageHub.Proofs.Manager.Changes

/-!
# Where operations on documents go

An operation on a document goes to the client that is registered under the normalized language of
the document, and it names the document by the URI of its path; what is asked about clients and
diagnostics is looked up under the same key and the same URI. So the spellings of a language make
no difference (`routing_agrees`), and what the server of the client has published last for the
document is found under each of them.
-/

namespace LanguageHub

open Language (normalize)

/-! ### Requests -/

namespace ManagerRequest

/-- The language as it was given and the path of the document that a request is about. -/
def document? : ManagerRequest → Option (String × String)
  | opened language path _ | changed language path _ | saved language path _
  | completion language path _ => some (language, path)
  | client _ | shutdown | stop _ | start .. => none

/-- What a request is to obtain a client for. -/
def goal (m : Manager) : ManagerRequest → Goal
  | opened _ path text => .document (.opened (m.uriOf path) text)
  | changed _ path text => .document (.changed (m.uriOf path) text)
  | saved _ path text => .document (.saved (m.uriOf path) text)
  | completion _ path position => .completion (m.uriOf path) position
  | client _ | shutdown | stop _ | start .. => .client

/-- Requests that differ at most in the spelling of the language. -/
inductive Respelled : ManagerRequest → ManagerRequest → Prop where
  | opened {l k : String} (same : normalize l = normalize k) (path text : String) :
      Respelled (.opened l path text) (.opened k path text)
  | changed {l k : String} (same : normalize l = normalize k) (path text : String) :
      Respelled (.changed l path text) (.changed k path text)
  | saved {l k : String} (same : normalize l = normalize k) (path text : String) :
      Respelled (.saved l path text) (.saved k path text)
  | completion {l k : String} (same : normalize l = normalize k) (path : String)
      (position : Position) : Respelled (.completion l path position) (.completion k path position)
  | client {l k : String} (same : normalize l = normalize k) : Respelled (.client l) (.client k)

end ManagerRequest

/-- The document that a notification is about. -/
def Notice.document? : Notice → Option String
  | didOpen uri .. | didChange uri .. | didSave uri _ => some uri
  | handshakeDone | shutdown => none

/-- What is sent for a goal names a document by its URI. -/
inductive Goal.Names (uri : String) : Goal → Prop where
  | document {request : Client.DocumentRequest}
      (named : ∀ c : Client, (c.documentNotice request).1.document? = some uri) :
      Names uri (.document request)
  | completion (position : Position) : Names uri (.completion uri position)

namespace Manager

variable {m : Manager} {language path key : String}

/-- Operations on a document go to the client that is registered under the key, and it is looked up
there. -/
structure Routes (m : Manager) (language path key : String) : Prop where
  route : m.route language path = .ok key
  normal : normalize key = key
  /-- The way to the client of that key is gone, to name the document by the URI of its path. -/
  begins : ∀ a now refusal r, r.document? = some (language, path) →
    ManagerTask.start a now refusal r m =
        ManagerTask.follow a key (r.goal m) (Obtaining.start a now refusal key m) ∧
      (r.goal m).Names (m.uriOf path)
  hasClient : m.hasClient key = (m.registry.get? key).isSome
  active : key ∈ m.activeLanguages ↔ m.hasClient key = true
  /-- A language that is not blank has that key. -/
  spelled : normalize language ≠ "" → m.hasClient language = m.hasClient key
  diagnostics : m.diagnostics language path =
    (((m.registry.get? key).bind m.client?).map (·.diagnosticsOf (m.uriOf path))).getD []

/-- Operations on a document of no language fail and change nothing, and nothing is known of it. -/
structure Unrouted (m : Manager) (language path : String) : Prop where
  route : m.route language path = .error (.unknownLanguage "")
  fails : ∀ a now refusal r, r.document? = some (language, path) →
    ManagerTask.start a now refusal r m =
      (.finished (ManagerTask.refuse (r.goal m) (.unknownLanguage "")), m)
  diagnostics : m.diagnostics language path = []

/-- Documents are routed by the normalized form of their language. -/
theorem route_eq_of_normalize_eq (m : Manager) {l k : String} (same : normalize l = normalize k)
    (path : String) : m.route l path = m.route k path := by
  simp only [route, m.resolver.resolve?_eq_of_normalize_eq same]
  split
  · rfl
  · next unresolved =>
    have unresolved' := unresolved
    rw [← m.resolver.resolve?_eq_of_normalize_eq same] at unresolved'
    rw [Language.Resolver.trim_eq_of_resolve?_eq_none unresolved,
      Language.Resolver.trim_eq_of_resolve?_eq_none unresolved']

/-- An operation on a document begins with the routing of the document. -/
theorem start_eq_obtain {a : Agent} {now : Nat} {refusal : Refusal} {r : ManagerRequest}
    (about : r.document? = some (language, path)) :
    ManagerTask.start a now refusal r m =
      ManagerTask.obtain a now refusal (m.route language path) (r.goal m) m := by
  cases r with
  | opened | changed | saved | completion =>
    cases about
    rfl
  | client | shutdown | stop | start => cases about

/-- An operation on a document names it by the URI of its path. -/
theorem names_goal {r : ManagerRequest} (about : r.document? = some (language, path)) :
    (r.goal m).Names (m.uriOf path) := by
  cases r with
  | opened | changed | saved =>
    cases about
    exact .document fun _ ↦ rfl
  | completion =>
    cases about
    exact .completion _
  | client | shutdown | stop | start => cases about

/-- A document has a key, or it has no language. -/
theorem routes_or_unrouted (made : m.resolver.Made) (language path : String) :
    (∃ key, m.Routes language path key) ∨ m.Unrouted language path := by
  cases resolved : m.resolver.resolve? language path with
  | none =>
    have unrouted : m.route language path = .error (.unknownLanguage "") := by
      rw [route, resolved]
      simp only
      rw [Language.Resolver.trim_eq_of_resolve?_eq_none resolved]
    refine .inr ⟨unrouted, fun a now refusal r about ↦ ?_, ?_⟩
    · rw [start_eq_obtain about, unrouted]
      rfl
    · simp [diagnostics, resolved]
  | some key =>
    have normal : normalize key = key := made.normalize_of_resolve? resolved
    have routed : m.route language path = .ok key := by
      rw [route, resolved]
      simp only
      rw [normal]
    have asked : m.hasClient key = (m.registry.get? key).isSome := by
      rw [hasClient, normal]
      rfl
    refine .inl ⟨key, routed, normal, fun a now refusal r about ↦ ⟨?_, names_goal about⟩, asked,
      ?_, fun spelled ↦ ?_, ?_⟩
    · rw [start_eq_obtain about, routed]
      rfl
    · rw [asked]
      exact Dictionary.isSome_lookup_iff.symm
    · have own : normalize language = key := by
        simp only [Language.Resolver.resolve?, if_neg spelled, Option.some.injEq] at resolved
        exact resolved
      rw [hasClient, hasClient, own, normal]
    · cases found : m.registry.get? key with
      | none => simp [diagnostics, resolved, found]
      | some i => cases client : m.client? i <;> simp [diagnostics, resolved, found, client]

/-- What is asked about a document does not depend on the spelling of its language. -/
theorem diagnostics_eq_of_normalize_eq (m : Manager) {l k : String}
    (same : normalize l = normalize k) (path : String) :
    m.diagnostics l path = m.diagnostics k path := by
  rw [diagnostics, diagnostics, m.resolver.resolve?_eq_of_normalize_eq same]

/-- Operations do not depend on the spelling of the language. -/
theorem start_eq_of_respelled {r q : ManagerRequest} (same : r.Respelled q) (a : Agent)
    (now : Nat) (refusal : Refusal) :
    ManagerTask.start a now refusal r m = ManagerTask.start a now refusal q m := by
  cases same with
  | opened same path | changed same path | saved same path | completion same path =>
    simp only [ManagerTask.start, m.route_eq_of_normalize_eq same]
  | client same => simp only [ManagerTask.start, same]

end Manager

/-! ### What is heard of servers -/

/-- The publications that the tasks that read have acted on, with the numbers of the clients, in
order. -/
abbrev Heard := List (Nat × Publication)

/-- What a client has published last for the documents with a canonical URI. -/
def Heard.latest? (heard : Heard) (i : Nat) (uri : String) : Option (List Diagnostic) :=
  (heard.filter fun x ↦ x.1 = i ∧ Uri.normalizeUri x.2.uri = uri).getLast?.map (·.2.diagnostics)

variable {i : Nat} {uri : String}

theorem Heard.latest?_append (heard more : Heard) (i : Nat) (uri : String) :
    latest? (heard ++ more) i uri = (latest? more i uri).or (latest? heard i uri) := by
  rw [latest?, List.filter_append, List.getLast?_append, Option.map_or]
  rfl

/-- What stands before publications of other clients or for other documents is the latest. -/
theorem Heard.latest?_eq {p : Publication} {past future : Heard}
    (about : Uri.normalizeUri p.uri = uri)
    (others : ∀ q, (i, q) ∈ future → Uri.normalizeUri q.uri ≠ uri) :
    latest? (past ++ (i, p) :: future) i uri = some p.diagnostics := by
  have none : future.filter (fun x ↦ x.1 = i ∧ Uri.normalizeUri x.2.uri = uri) = [] := by
    rw [List.filter_eq_nil_iff]
    rintro ⟨j, q⟩ mem holds
    obtain ⟨rfl, same⟩ := of_decide_eq_true holds
    exact others q mem same
  rw [latest?, List.filter_append, List.filter_cons_of_pos (by simp [about]), none,
    List.getLast?_concat]
  rfl

namespace ManagerSession

variable {s₀ s t : ManagerSession} {heard shown : Heard}

/-- The publication that the task that reads of a client acts on next, if it is one. -/
def publication? (s : ManagerSession) (i : Nat) : Option Publication :=
  ((s.manager.client? i).bind (·.connection.stepReading?)).bind fun (_, notice) ↦
    notice.bind (·.publication?)

/-- What may happen next, with the publication that is acted on. -/
inductive Hears (s : ManagerSession) : Heard → ManagerSession → Prop where
  | start (refusal : Refusal) (n : Nat) (r : ManagerRequest) (fresh : n ∉ s.numbers)
      (admitted : s.Admits r) : Hears s [] (s.start refusal n r)
  | advance {t : ManagerSession} (refusal : Refusal) (n : Nat)
      (step : s.advance? refusal n = some t) : Hears s [] t
  | read {t : ManagerSession} (i : Nat) (step : s.advanceReading? i = some t) :
      Hears s ((s.publication? i).toList.map (i, ·)) t
  | event (e : Event) : Hears s [] (s.happen e)

/-- What can come of a session, with the publications that were acted on. -/
inductive Hearing (s₀ : ManagerSession) : Heard → ManagerSession → Prop where
  | begins : Hearing s₀ [] s₀
  | hears {heard shown : Heard} {s t : ManagerSession} (hearing : Hearing s₀ heard s)
      (next : s.Hears shown t) : Hearing s₀ (heard ++ shown) t

/-- Whatever comes of a session, some publications were acted on. -/
theorem Reachable.exists_hearing (reachable : Reachable s₀ s) : ∃ heard, s₀.Hearing heard s := by
  induction reachable with
  | refl => exact ⟨[], .begins⟩
  | step _ next ih =>
    obtain ⟨heard, hearing⟩ := ih
    cases next with
    | start refusal n r fresh admitted =>
      exact ⟨_, hearing.hears (.start refusal n r fresh admitted)⟩
    | advance refusal n step => exact ⟨_, hearing.hears (.advance refusal n step)⟩
    | read i step => exact ⟨_, hearing.hears (.read i step)⟩
    | event e => exact ⟨_, hearing.hears (.event e)⟩

/-- The managers before and after something has happened: documents are routed as before, and a
client keeps what it kept, but for what it has published. -/
structure Follows (m n : Manager) (shown : Heard) : Prop where
  resolver : n.resolver = m.resolver
  directory : n.directory = m.directory
  diagnostics : ∀ i c, m.client? i = some c → ∃ d, n.client? i = some d ∧ ∀ uri,
    d.diagnostics.get uri = (shown.latest? i uri).getD (c.diagnostics.get uri)
  published : ∀ i uri ds, shown.latest? i uri = some ds → ∃ c, m.client? i = some c

/-- Nothing is published where nothing happens. -/
theorem Follows.refl (m : Manager) : Follows m m [] :=
  ⟨rfl, rfl, fun _ c client ↦ ⟨c, client, fun _ ↦ rfl⟩, fun _ _ _ latest ↦ by cases latest⟩

/-- An operation publishes nothing. -/
theorem follows_of_moves {a : Agent} {about : String → Prop} {m n : Manager}
    (moves : m.Moves a about n) : Follows m n [] where
  resolver := moves.settings.2.1
  directory := moves.settings.2.2.2
  diagnostics i c client := by
    obtain ⟨d, found, moves⟩ := moves.exists_client? client
    exact ⟨d, found, fun uri ↦ by rw [moves.diagnostics]; rfl⟩
  published i uri ds latest := by cases latest

/-- One client is changed. -/
theorem follows_setClient {m : Manager} {c d : Client} (client : m.client? i = some c)
    (own : ∀ uri, d.diagnostics.get uri = (shown.latest? i uri).getD (c.diagnostics.get uri))
    (others : ∀ j uri, j ≠ i → shown.latest? j uri = none) : Follows m (m.setClient i d) shown where
  resolver := rfl
  directory := rfl
  diagnostics j e found := by
    rw [Manager.client?_setClient_of_some client]
    split
    · next same =>
      subst same
      rw [client] at found
      cases found
      exact ⟨d, rfl, own⟩
    · next other => exact ⟨e, found, fun uri ↦ by rw [others j uri other]; rfl⟩
  published j uri ds latest := by
    by_cases same : j = i
    · exact ⟨c, same ▸ client⟩
    · rw [others j uri same] at latest
      cases latest

/-- A publication of one client. -/
theorem latest?_singleton (i : Nat) (p : Publication) (j : Nat) (uri : String) :
    Heard.latest? [(i, p)] j uri =
      if i = j ∧ Uri.normalizeUri p.uri = uri then some p.diagnostics else none := by
  by_cases holds : i = j ∧ Uri.normalizeUri p.uri = uri
  · rw [if_pos holds, Heard.latest?, List.filter_cons_of_pos (by simpa using holds)]
    rfl
  · rw [if_neg holds, Heard.latest?, List.filter_cons_of_neg (by simpa using holds)]
    rfl

/-- A client keeps what is published, under the canonical form of the URI. -/
theorem get_keep (ds : DiagnosticSet) (p : Publication) (uri : String) :
    (ds.keep p).get uri =
      if Uri.normalizeUri p.uri = uri then p.diagnostics else ds.get uri := by
  rw [DiagnosticSet.get, DiagnosticSet.get?_keep]
  by_cases same : Uri.normalizeUri p.uri = uri
  · rw [if_pos same.symm, if_pos same]
    rfl
  · rw [if_neg (Ne.symm same), if_neg same]
    rfl

/-- A step of the task that reads keeps what it acts on, if that is a publication. -/
private theorem get_of_stepReading? {c d : Client} {event : Option ClientEvent}
    (step : c.stepReading? = some (d, event)) (uri : String) :
    d.diagnostics.get uri =
      ((c.connection.stepReading?.bind fun (_, notice) ↦ notice.bind (·.publication?)).elim
        c.diagnostics c.diagnostics.keep).get uri := by
  unfold Client.stepReading? at step
  cases hstep : c.connection.stepReading? with
  | none =>
    rw [hstep] at step
    cases step
  | some next =>
    obtain ⟨connection, notice⟩ := next
    rw [hstep] at step
    rcases notice with _ | (_ | _ | _) <;> cases step <;> rfl

/-- A step of the task that reads of a client. -/
private theorem follows_of_advanceReading? (step : s.advanceReading? i = some t) :
    Follows s.manager t.manager ((s.publication? i).toList.map (i, ·)) := by
  obtain ⟨c, d, event, client, hstep, hmanager, -⟩ := exists_stepReading? step
  have published : s.publication? i =
      c.connection.stepReading?.bind fun (_, notice) ↦ notice.bind (·.publication?) := by
    rw [publication?, client, Option.bind_some]
  rw [hmanager]
  refine follows_setClient client (fun uri ↦ ?_) fun j uri other ↦ ?_
  · rw [get_of_stepReading? hstep, ← published]
    cases s.publication? i with
    | none => rfl
    | some p =>
      change (c.diagnostics.keep p).get uri = (Heard.latest? [(i, p)] i uri).getD _
      rw [get_keep, latest?_singleton]
      by_cases about : Uri.normalizeUri p.uri = uri
      · rw [if_pos about, if_pos ⟨rfl, about⟩, Option.getD_some]
      · rw [if_neg about, if_neg (fun h ↦ about h.2), Option.getD_none]
  · cases s.publication? i with
    | none => rfl
    | some p =>
      change Heard.latest? [(i, p)] j uri = none
      rw [latest?_singleton, if_neg fun h ↦ other h.1.symm]

/-- What a server does publishes nothing. -/
theorem diagnostics_apply (e : ServerEvent) (c : Client) :
    (e.apply c).diagnostics = c.diagnostics := by
  cases e <;> rfl

/-- Whatever happens, a client keeps what it kept, but for what it has published. -/
theorem Hears.follows (next : s.Hears shown t) : Follows s.manager t.manager shown := by
  cases next with
  | start refusal n r fresh admitted =>
    rw [(s.start_eq refusal n r).1]
    have moves : s.manager.Moves (.operation n) (fun _ ↦ True)
        (ManagerTask.start (.operation n) s.now refusal r s.manager).2 :=
      ManagerTask.moves_start _ _ _ _ _ (fun _ _ ↦ trivial) (fun _ _ ↦ trivial)
        fun _ _ _ ↦ trivial
    exact follows_of_moves moves
  | advance refusal n step =>
    obtain ⟨task, p, -, hstep, -⟩ := exists_of_advance? step
    have moves : s.manager.Moves (.operation n) (fun _ ↦ True) t.manager :=
      ManagerTask.moves_step? (fun _ _ _ _ ↦ trivial) hstep
    exact follows_of_moves moves
  | read i step => exact follows_of_advanceReading? step
  | event e =>
    obtain ⟨-, hmanager | ⟨i, c, event, client, hmanager⟩⟩ := s.exists_apply e
    · rw [hmanager]
      exact .refl s.manager
    · rw [hmanager]
      exact follows_setClient client (fun uri ↦ by rw [diagnostics_apply]; rfl) fun _ _ _ ↦ rfl

/-- Along a run, documents are routed as at its beginning, and a client keeps what it has published
last for each document. -/
theorem Hearing.keeps (hearing : s₀.Hearing heard s) :
    s.manager.resolver = s₀.manager.resolver ∧ s.manager.directory = s₀.manager.directory ∧
      ∀ i uri ds, heard.latest? i uri = some ds →
        ∃ c, s.manager.client? i = some c ∧ c.diagnostics.get uri = ds := by
  induction hearing with
  | begins => exact ⟨rfl, rfl, fun i uri ds latest ↦ by cases latest⟩
  | @hears heard shown s t hearing next ih =>
    obtain ⟨resolver, directory, kept⟩ := ih
    have follows := next.follows
    refine ⟨follows.resolver.trans resolver, follows.directory.trans directory,
      fun i uri ds latest ↦ ?_⟩
    rw [Heard.latest?_append, Option.or_eq_some_iff] at latest
    obtain now | ⟨silent, before⟩ := latest
    · obtain ⟨c, client⟩ := follows.published i uri ds now
      obtain ⟨d, found, own⟩ := follows.diagnostics i c client
      exact ⟨d, found, by rw [own, now]; rfl⟩
    · obtain ⟨c, client, rfl⟩ := kept i uri ds before
      obtain ⟨d, found, own⟩ := follows.diagnostics i c client
      exact ⟨d, found, by rw [own, silent]; rfl⟩

/-- Operations begin alike under every spelling of a language. -/
theorem start_eq_of_respelled {r q : ManagerRequest} (same : r.Respelled q)
    (refusal : Refusal) (n : Nat) : s.start refusal n r = s.start refusal n q := by
  simp only [start, s.manager.start_eq_of_respelled same]

/-- In every state that a manager comes to, two spellings of a language make no difference. An
operation begins the same way under either, and in particular, operations on a document go to the
client that is registered under one key, and name the document by one URI, or fail for want of a
language; what is asked about clients and diagnostics is looked up there, and the key and the URI
are the same all along. When the client that is registered there has acted on a publication for a
URI that is the same in canonical form, the diagnostics under either spelling are those that were
published, until it acts on another one or is registered no more. -/
theorem routing_agrees (made : s₀.manager.resolver.Made) (hearing : s₀.Hearing heard s)
    {l k : String} (same : normalize l = normalize k) (path : String) :
    (∀ refusal n r q, ManagerRequest.Respelled r q → s.start refusal n r = s.start refusal n q) ∧
    ((∃ key, s.manager.Routes l path key ∧ s.manager.Routes k path key) ∨
      s.manager.Unrouted l path ∧ s.manager.Unrouted k path) ∧
    s.manager.hasClient l = s.manager.hasClient k ∧
    (s.manager.route l path = s₀.manager.route l path ∧
      s.manager.uriOf path = s₀.manager.uriOf path) ∧
    ∀ key i past p future, s.manager.route l path = .ok key →
      s.manager.registry.get? key = some i → heard = past ++ (i, p) :: future →
      Uri.normalizeUri p.uri = Uri.normalizeUri (s.manager.uriOf path) →
      (∀ q, (i, q) ∈ future →
        Uri.normalizeUri q.uri ≠ Uri.normalizeUri (s.manager.uriOf path)) →
      s.manager.diagnostics k path = p.diagnostics := by
  obtain ⟨resolver, directory, kept⟩ := hearing.keeps
  have made : s.manager.resolver.Made := resolver ▸ made
  have routed := s.manager.route_eq_of_normalize_eq same path
  refine ⟨fun refusal n r q respelled ↦ start_eq_of_respelled respelled refusal n, ?_, ?_, ?_, ?_⟩
  · obtain ⟨key, first⟩ | first := s.manager.routes_or_unrouted made l path
    · obtain ⟨key', second⟩ | second := s.manager.routes_or_unrouted made k path
      · have agree := routed
        rw [first.route, second.route] at agree
        cases agree
        exact .inl ⟨key, first, second⟩
      · rw [first.route, second.route] at routed
        cases routed
    · obtain ⟨key', second⟩ | second := s.manager.routes_or_unrouted made k path
      · rw [first.route, second.route] at routed
        cases routed
      · exact .inr ⟨first, second⟩
  · rw [Manager.hasClient, Manager.hasClient, same]
  · exact ⟨by rw [Manager.route, Manager.route, resolver],
      by rw [Manager.uriOf, Manager.uriOf, directory]⟩
  · rintro key i past p future route registered rfl about others
    obtain ⟨c, client, last⟩ := kept i _ _ (Heard.latest?_eq about others)
    obtain ⟨key', routes⟩ | unrouted := s.manager.routes_or_unrouted made k path
    · rw [routed, routes.route] at route
      cases route
      rw [routes.diagnostics, registered, Option.bind_some, client]
      exact last
    · rw [routed, unrouted.route] at route
      cases route

/-- What a move acts on. -/
def moveHears (s : ManagerSession) : Move → Heard
  | .read i => (s.publication? i).toList.map (i, ·)
  | .client .. | .stop .. | .advance _ | .event _ => []

/-- A move acts on that. -/
theorem hears_of_move? {move : Move} {history : ManagerHistory}
    (h : s.move? move = some (history, t)) : s.Hears (s.moveHears move) t := by
  cases move with
  | client n language =>
    simp only [move?, Option.ite_none_right_eq_some] at h
    obtain ⟨fresh, h⟩ := h
    cases h
    exact .start unrefused n (.client language) fresh trivial
  | stop n i =>
    simp only [move?, Option.ite_none_right_eq_some] at h
    obtain ⟨⟨fresh, given⟩, h⟩ := h
    cases h
    exact .start unrefused n (.stop i) fresh given
  | advance n =>
    simp only [move?, Option.map_eq_some_iff] at h
    obtain ⟨_, step, h⟩ := h
    cases h
    exact .advance unrefused n step
  | read i =>
    simp only [move?, Option.map_eq_some_iff] at h
    obtain ⟨_, step, h⟩ := h
    cases h
    exact .read i step
  | event e =>
    cases h
    exact .event e

/-- Make moves one after the other, and note what is acted on; a move that cannot be made is left
out. -/
def listen : List Move → Heard × ManagerSession → Heard × ManagerSession
  | [], state => state
  | move :: moves, (heard, s) =>
    match s.move? move with
    | some (_, t) => listen moves (heard ++ s.moveHears move, t)
    | none => listen moves (heard, s)

/-- What is listened to is a run. -/
theorem Hearing.listen (hearing : s₀.Hearing heard s) (moves : List Move) :
    s₀.Hearing (listen moves (heard, s)).1 (listen moves (heard, s)).2 := by
  induction moves generalizing heard s with
  | nil => exact hearing
  | cons move moves ih =>
    simp only [ManagerSession.listen]
    split
    · next history t hmove => exact ih (hearing.hears (hears_of_move? hmove))
    · exact ih hearing

/-- A manager whose client for a language is ready. -/
def staffed : ManagerSession where
  manager := {
    commands := .builtin
    root := "/"
    clients := [⟨["pylsp"], {
      language := "python"
      limit := none
      connection := .ofTransport { sink.capacity := some 65536 } false
      phase := .ready
      child := some .running }⟩]
    registry := Dictionary.empty.insert "python" 0 }

/-- The server of the client publishes a warning for a document. -/
def warned : Heard × ManagerSession :=
  let body := "\x7b\"method\":\"textDocument/publishDiagnostics\",\"params\":\x7b\"uri\":" ++
    "\"file:///a.py\",\"diagnostics\":[\x7b\"range\":\x7b\"start\":\x7b\"line\":0," ++
    "\"character\":0\x7d,\"end\":\x7b\"line\":0,\"character\":1\x7d\x7d," ++
    "\"message\":\"unused\"\x7d]\x7d\x7d"
  listen ([.event (.server 0 (.arrive (Frame.encode body)))] ++ List.replicate 7 (.read 0))
    ([], staffed)

/-- What the server publishes. -/
def warning : Publication :=
  ⟨"file:///a.py", none, [⟨⟨⟨0, 0⟩, ⟨0, 1⟩⟩, none, none, none, "unused"⟩]⟩

/-- The client is registered, and the publication was acted on. -/
private theorem warned_facts :
    warned.2.manager.route "Python" "/a.py" = .ok "python" ∧
    warned.2.manager.registry.get? "python" = some 0 ∧ warned.1 = [] ++ (0, warning) :: [] ∧
    Uri.normalizeUri warning.uri = Uri.normalizeUri (warned.2.manager.uriOf "/a.py") := by
  decide +kernel

/-- The warning is found under another spelling of the language. -/
theorem diagnostics_warned :
    staffed.manager.resolver.Made ∧ staffed.Hearing warned.1 warned.2 ∧
    normalize "Python" = normalize " PYTHON" ∧
    warned.2.manager.route "Python" "/a.py" = .ok "python" ∧
    warned.2.manager.registry.get? "python" = some 0 ∧ warned.1 = [] ++ (0, warning) :: [] ∧
    Uri.normalizeUri warning.uri = Uri.normalizeUri (warned.2.manager.uriOf "/a.py") ∧
    warned.2.manager.diagnostics " PYTHON" "/a.py" = warning.diagnostics := by
  have hearing : staffed.Hearing warned.1 warned.2 := Hearing.begins.listen _
  have same : normalize "Python" = normalize " PYTHON" := by decide +kernel
  obtain ⟨route, registered, heard, about⟩ := warned_facts
  refine ⟨.builtin, hearing, same, route, registered, heard, about, ?_⟩
  exact (routing_agrees .builtin hearing same "/a.py").2.2.2.2 "python" 0 [] warning [] route
    registered heard about (by simp)

end ManagerSession

end LanguageHub
