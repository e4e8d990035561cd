import LanguageHub.Proofs.Client.Stages

/-!
# The order of the frames of a client

The frames of a client that have gone out completely, without the answers to requests of the server,
are those of a dialogue: the client introduces itself, and when it has read that the server accepts
it says so, speaks of documents, and says at most once, and last, that it shuts down.
-/

namespace LanguageHub

/-- What was said is a dialogue, what has gone out of it is one as well, and there was nothing to
say after the first message before the server had accepted it. -/
structure History.Spoken (h : History) : Prop where
  said : Dialogue h.messages
  gone : ∃ word, Dialogue word ∧ word.Sublist h.messages ∧ h.finished = word.map (·.frame)
  accepted : 1 < h.messages.length → ∃ id rootUri, h.Accepted id rootUri

namespace History

variable {h : History} {rest : List ClientMessage}

/-- What was said before a handshake failed is the beginning of a dialogue. -/
theorem Cut.spoken (cut : h.Cut) (finished : h.finished.Sublist (h.messages.map (·.frame))) :
    h.Spoken := by
  have none : h.Sent [] := List.nil_prefix
  cases cut with
  | silent said =>
    obtain ⟨word, fewer, gone⟩ := none.exists_word said finished
    rw [List.sublist_nil.mp fewer] at gone
    exact ⟨said ▸ .silent, ⟨[], .silent, List.nil_sublist _, gone⟩, by simp [said]⟩
  | greeted said =>
    obtain ⟨word, fewer, gone⟩ := none.exists_word said finished
    refine ⟨said ▸ .greeted _ _, ⟨word, ?_, said ▸ fewer, gone⟩, by simp [said]⟩
    obtain rfl | rfl := List.sublist_singleton.mp fewer
    · exact .silent
    · exact .greeted _ _
  | confirmed said accepted sent =>
    obtain ⟨word, fewer, gone⟩ := sent.exists_word said finished
    refine ⟨said ▸ .serving _ _ (by simp), ⟨_, ?_, said ▸ fewer.cons_cons _, gone⟩,
      fun _ ↦ ⟨_, _, accepted⟩⟩
    obtain rfl | rfl := List.sublist_singleton.mp fewer
    · exact .greeted _ _
    · exact .serving _ _ (by simp)

/-- What was said after the handshake goes on with the dialogue. -/
theorem Opened.spoken (opened : h.Opened rest)
    (finished : h.finished.Sublist (h.messages.map (·.frame)))
    (dialogue : ∀ id rootUri, Dialogue (.greeting id rootUri :: .notice .handshakeDone :: rest)) :
    h.Spoken := by
  obtain ⟨id, rootUri, said, accepted, sent⟩ := opened
  obtain ⟨part, fewer, gone⟩ := sent.exists_word said finished
  refine ⟨said ▸ dialogue id rootUri, ⟨_, (dialogue id rootUri).leaveOut fewer, ?_, gone⟩,
    fun _ ↦ ⟨id, rootUri, accepted⟩⟩
  rw [said]
  exact (fewer.cons_cons _).cons_cons _

end History

namespace ClientSession

variable {s : ClientSession} {h : History} {accepted : List Client.DocumentRequest}
  {language : String} {limit : Option Duration} {capacity : Nat} {installed : Bool}
  {child : Option Child}

/-- At every stage a dialogue was spoken. -/
theorem Stage.spoken (stage : Stage h s)
    (finished : h.finished.Sublist (h.messages.map (·.frame))) : h.Spoken := by
  cases stage with
  | fresh _ _ said => exact History.Cut.spoken (.silent said) finished
  | asking _ _ asked => exact History.Cut.spoken (.greeted asked.said) finished
  | confirming _ _ said accepted sent =>
    exact History.Cut.spoken (.confirmed said accepted sent) finished
  | failing _ _ _ cut => exact cut.spoken finished
  | serving _ _ _ only opened => exact opened.spoken finished fun _ _ ↦ .serving _ _ only
  | ending _ _ _ only opened => exact opened.spoken finished fun _ _ ↦ .ended _ _ only

/-- The frames of a client that have gone out completely are those of a dialogue, but for the
answers to requests of the server. What was begun is part of a dialogue as well, and nothing was
begun after the first message before the server had accepted it. A shutdown is said once and
last. -/
theorem wire_order (run : Run (hosted language limit capacity installed child) h accepted s) :
    s.client.connection.transport.sink.written = h.wire.flatMap (·.sent) ∧
    (∀ x ∈ h.wire, x.author = .reading →
      ∃ id, .requested id ∈ h ∧ x.frame = Frame.encode (encodeNullReply id)) ∧
    (∃ word, Dialogue word ∧
      ((h.wire.filter fun x ↦ x.sent = x.frame ∧ x.author ≠ .reading).map (·.frame) =
        word.map (·.frame)) ∧
      (.notice .shutdown ∈ word →
        ∃ before, word = before ++ [.notice .shutdown] ∧ .notice .shutdown ∉ before)) ∧
    (Dialogue h.messages ∧ h.begun.Sublist (h.messages.map (·.frame))) ∧
    (1 < h.begun.length → ∃ id rootUri, h.Accepted id rootUri) := by
  have orderly := run.orderly
  have begun := begun_sublist orderly run.balanced
  have spoken := run.stage.spoken (h.finished_sublist_begun.trans begun)
  refine ⟨orderly.written, fun x hx author ↦ run.balanced.exists_reply ?_, ?_,
    ⟨spoken.said, begun⟩, fun long ↦ ?_⟩
  · rw [← author]
    exact orderly.inOrder.subset (List.mem_append_left _ (List.mem_map_of_mem hx))
  · obtain ⟨word, dialogue, -, gone⟩ := spoken.gone
    refine ⟨word, dialogue, ?_, dialogue.shutdown_last⟩
    rw [← gone, h.finished_eq]
  · refine spoken.accepted (Nat.lt_of_lt_of_le long ?_)
    exact begun.length_le.trans (List.length_map _).le

/-- A client that speaks of a document. -/
def speaking : ClientSession :=
  (greeted 4000 none).start 1 (.document (.opened "file:///w/a.py" "x"))

/-- A client that has spoken of a document is shut down twice. -/
def shutDownTwice : ClientSession :=
  settle advanceAny? 40 ((speaking.start 2 .shutdown).start 3 .shutdown)

/-- All four operations are admitted, and four frames go out. -/
private theorem admits_shutDownTwice :
    (1 ∉ (greeted 4000 none).numbers ∧ (greeted 4000 none).isConnected) ∧
    (2 ∉ speaking.numbers ∧ speaking.isConnected) ∧
    (3 ∉ (speaking.start 2 .shutdown).numbers ∧ (speaking.start 2 .shutdown).isConnected) ∧
    (Frame.split shutDownTwice.client.connection.transport.sink.written).1.length = 4 := by
  decide +kernel

/-- Four frames go out of a client that is shut down twice, and they are those of a dialogue. -/
theorem dialogue_shutDownTwice : ∃ h accepted,
    Run (hosted "python" none 4000 true none) h accepted shutDownTwice ∧
    (Frame.split shutDownTwice.client.connection.transport.sink.written).1.length = 4 ∧
    ∃ word, Dialogue word ∧
      (h.wire.filter fun x ↦ x.sent = x.frame ∧ x.author ≠ .reading).map (·.frame) =
        word.map (·.frame) := by
  obtain ⟨first, second, third, frames⟩ := admits_shutDownTwice
  obtain ⟨_, run⟩ := run_greeted 4000 none
  have run := run.start 1 (.document (.opened "file:///w/a.py" "x")) first.1 first.2
  have run := Run.start run 2 .shutdown second.1 second.2
  obtain ⟨h, run⟩ := (Run.start run 3 .shutdown third.1 third.2).settle 40
  have run : Run (hosted "python" none 4000 true none) h _ shutDownTwice := run
  obtain ⟨-, -, ⟨word, dialogue, gone, -⟩, -, -⟩ := wire_order run
  exact ⟨h, _, run, frames, word, dialogue, gone⟩

end ClientSession

end LanguageHub
