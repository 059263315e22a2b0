import CanProxy.Lib.Rank
import CanProxy.Proofs.Replay.Server

/-! When the replay tool keeps of a recorded session what the client accepted last. -/

namespace CanProxy.Replay

open Filtered

/-- The line of a record can be read back; that of a frame without data is refused. -/
def readable (f : CanFrame) : Bool := f.dlc ≠ 0

/-- How many of the records between two positions can be read back. -/
def between (log : List CanFrame) (i j : Nat) : Nat := ((log.take j).drop (i + 1)).countP readable

/-- A record is soon behind a request for a parameter: fewer than fifteen that are read are in between. -/
def Soon (pid : UInt8) (log : List CanFrame) (i j : Nat) : Prop :=
  i < j ∧ At (asksPid pid) log i ∧ between log i j < 15

/--
Nothing comes in the way of a response: it is soon behind a request for its parameter, with none of the
others in between, and none of the others is soon behind a later request.
-/
def Undisturbed (other : Nat → Prop) (pid : UInt8) (log : List CanFrame) (a : Nat) : Prop :=
  (∃ i, Soon pid log i a ∧ ∀ j, i < j → j < a → ¬other j) ∧
    ∀ i j, a < i → Soon pid log i j → ¬other j

/-- A response that carries the parameter and that the client did not accept for it. -/
def Session.Stray (s : Session) (pid : UInt8) (j : Nat) : Prop :=
  -- Another controller's, one of another service, or one that nobody was waiting for.
  At (namesPid pid) s.log j ∧ ⟨pid, j⟩ ∉ s.accepted

/-- What the tool keeps for a parameter is the frame at a position of a log, as far as it is recorded. -/
def Keeps (recs : List Rec) (pid : UInt8) (log : List CanFrame) (a : Nat) : Prop :=
  ∃ f g, answers (recs.map Rec.frame) pid = some f ∧ log[a]? = some g ∧ SameFrame f g

section Positions

variable {P : CanFrame → Bool} {pid : UInt8} {log : List CanFrame}

theorem readable_of_long {f : CanFrame} (long : 3 ≤ f.dlc) : readable f = true := by
  rw [readable, decide_eq_true_eq]
  intro empty
  rw [empty] at long
  exact absurd long (by decide)

/-- A request for a parameter is long enough to be read. -/
theorem readable_asksPid (f : CanFrame) (asks : asksPid pid f = true) : readable f = true := by
  simp only [asksPid, isRequest, Bool.and_eq_true, decide_eq_true_eq] at asks
  exact readable_of_long asks.1.2

/-- A response that carries a parameter is long enough to be read. -/
theorem readable_namesPid (f : CanFrame) (names : namesPid pid f = true) : readable f = true := by
  simp only [namesPid, Bool.and_eq_true, decide_eq_true_eq] at names
  exact readable_of_long names.1.2

/-- What is found where the log is read is found in the log. -/
theorem at_written (kept : ∀ f, P f = true → readable f = true) {k : Nat} :
    At P (written log) k ↔ ∃ a, rank readable log a = k ∧ At P log a := by
  have filtered : written log = log.filter readable := rfl
  simp only [At, filtered, getElem?_filter]
  constructor
  · rintro ⟨f, ⟨a, place, found, -⟩, holds⟩
    exact ⟨a, place, f, found, holds⟩
  · rintro ⟨a, place, f, found, holds⟩
    exact ⟨f, ⟨a, place, found, kept f holds⟩, holds⟩

/-- Records that are read stay in their order. -/
theorem rank_lt (kept : ∀ f, P f = true → readable f = true) {a b : Nat} (here : At P log a) :
    rank readable log a < rank readable log b ↔ a < b := by
  obtain ⟨f, found, holds⟩ := here
  exact rank_lt_iff found (kept f holds)

/-- A record is soon behind a request when it is read at most fifteen positions behind it. -/
theorem soon_iff {i j : Nat} (asks : At (asksPid pid) log i) :
    Soon pid log i j ↔
      rank readable log i < rank readable log j ∧ rank readable log j ≤ rank readable log i + 15 := by
  rw [Soon, rank_lt readable_asksPid asks, and_congr_right_iff]
  intro lt
  obtain ⟨f, found, holds⟩ := asks
  have counted := rank_of_kept found (readable_asksPid f holds) lt
  rw [← between] at counted
  constructor
  · rintro ⟨-, few⟩
    omega
  · intro within
    exact ⟨⟨f, found, holds⟩, by omega⟩

/-- Where the log is read, a response is paired when no other response comes in its way. -/
theorem paired_written {a : Nat} (names : At (namesPid pid) log a) :
    Paired pid (written log) (rank readable log a) ↔ Undisturbed (At (namesPid pid) log) pid log a := by
  constructor
  · rintro ⟨⟨k, asked, before, within, first⟩, later⟩
    obtain ⟨i, rfl, asks⟩ := (at_written readable_asksPid).mp asked
    refine ⟨⟨i, (soon_iff asks).mpr ⟨before, within⟩, fun j after earlier other => ?_⟩,
      fun i j after soon other => ?_⟩
    · exact first _ ((rank_lt readable_asksPid asks).mpr after) ((rank_lt readable_namesPid other).mpr earlier)
        ((at_written readable_namesPid).mpr ⟨j, rfl, other⟩)
    · have asks := soon.2.1
      obtain ⟨behind, close⟩ := (soon_iff asks).mp soon
      exact later _ ((rank_lt readable_namesPid names).mpr after) ((at_written readable_asksPid).mpr ⟨i, rfl, asks⟩)
        ⟨_, behind, close, (at_written readable_namesPid).mpr ⟨j, rfl, other⟩⟩
  · rintro ⟨⟨i, soon, first⟩, later⟩
    have asks := soon.2.1
    obtain ⟨before, within⟩ := (soon_iff asks).mp soon
    refine ⟨⟨_, (at_written readable_asksPid).mpr ⟨i, rfl, asks⟩, before, within,
      fun k after earlier listed => ?_⟩, fun k after asked => ?_⟩
    · obtain ⟨j, rfl, other⟩ := (at_written readable_namesPid).mp listed
      exact first j ((rank_lt readable_asksPid asks).mp after) ((rank_lt readable_namesPid other).mp earlier) other
    · obtain ⟨i', rfl, asks⟩ := (at_written readable_asksPid).mp asked
      rintro ⟨k, behind, close, listed⟩
      obtain ⟨j, rfl, other⟩ := (at_written readable_namesPid).mp listed
      exact later i' j ((rank_lt readable_namesPid names).mp after) ((soon_iff asks).mpr ⟨behind, close⟩) other

end Positions

section Same

variable {f g h : CanFrame} {log : List CanFrame} {pid : UInt8}

theorem SameFrame.symm (same : SameFrame f g) : SameFrame g f :=
  ⟨same.id.symm, same.dlc.symm, fun i inside => (same.data i (same.dlc ▸ inside)).symm⟩

theorem SameFrame.trans (same : SameFrame f g) (same' : SameFrame g h) : SameFrame f h :=
  ⟨same.id.trans same'.id, same.dlc.trans same'.dlc,
    fun i inside => (same.data i (same'.dlc ▸ inside)).trans (same'.data i inside)⟩

/-- What is kept is the frame of a response that no other response of the log comes in the way of. -/
theorem keeps_iff {recs : List Rec} {a : Nat} (read : List.Forall₂ SameFrame (recs.map Rec.frame) (written log))
    (names : At (namesPid pid) log a) :
    Keeps recs pid log a ↔
      ∃ j, Undisturbed (At (namesPid pid) log) pid log j ∧
        ∃ f g, log[j]? = some f ∧ log[a]? = some g ∧ SameFrame f g := by
  have back : List.Forall₂ SameFrame (written log) (recs.map Rec.frame) :=
    (read.imp fun _ _ same => same.symm).flip
  constructor
  · rintro ⟨f, g, kept, found, same⟩
    -- What is kept is read at the stored position, which is that of a record of the log.
    obtain ⟨h, stored, same'⟩ := answers_same back kept
    rw [answers_eq] at stored
    obtain ⟨k, place, holds⟩ := Option.bind_eq_some_iff.mp stored
    obtain ⟨⟨h', again, own⟩, paired⟩ := storedAt_eq_some.mp place
    obtain rfl := Option.some.inj (holds.symm.trans again)
    obtain ⟨j, rfl, here, -⟩ := getElem?_filter.mp holds
    exact ⟨j, (paired_written ⟨h, here, own⟩).mp paired, h, g, here, found, same'.trans same⟩
  · rintro ⟨j, undisturbed, f, g, here, found, same⟩
    obtain ⟨g', again, own⟩ := names
    obtain rfl := Option.some.inj (found.symm.trans again)
    have own : namesPid pid f = true := same.namesPid.trans own
    have holds : (written log)[rank readable log j]? = some f :=
      getElem?_filter.mpr ⟨j, rfl, here, readable_namesPid f own⟩
    have kept : answers (written log) pid = some f := by
      rw [answers_eq, storedAt_eq_some.mpr
        ⟨⟨f, holds, own⟩, (paired_written ⟨f, here, own⟩).mpr undisturbed⟩]
      exact holds
    obtain ⟨f', kept', same'⟩ := answers_same read kept
    exact ⟨f', g, kept', found, same'.trans same⟩

end Same

section Sessions

variable {broadcastId : Option UInt32}

/-- What is recorded stays where it is. -/
theorem At.append {P : CanFrame → Bool} {log : List CanFrame} {i : Nat} (recorded : At P log i)
    (more : List CanFrame) : At P (log ++ more) i := by
  obtain ⟨r, read, property⟩ := recorded
  have within := (List.getElem?_eq_some_iff.mp read).1
  exact ⟨r, by rw [List.getElem?_append_left within, read], property⟩

/-- A record is within the log. -/
theorem At.lt {P : CanFrame → Bool} {log : List CanFrame} {i : Nat} (recorded : At P log i) :
    i < log.length := by
  obtain ⟨r, read, -⟩ := recorded
  exact (List.getElem?_eq_some_iff.mp read).1

/-- The accepted answers are recorded in their order, each behind a request that came after those before it. -/
structure Session.Ordered (s : Session) : Prop where
  recorded : ∀ x ∈ s.accepted, At (namesPid x.pid) s.log x.answered
  sorted : s.accepted.Pairwise fun x y => x.answered < y.answered
  asked : ∀ x ∈ s.accepted, ∃ q < x.answered, At (asksPid x.pid) s.log q ∧
    ∀ y ∈ s.accepted, y.answered < x.answered → y.answered < q

/-- What is recorded without an answer being accepted changes nothing. -/
theorem Session.Ordered.record {s : Session} (ordered : s.Ordered) (client : Client) (more : List CanFrame) :
    Session.Ordered { s with client := client, log := s.log ++ more } := by
  refine ⟨fun x member => (ordered.recorded x member).append more, ordered.sorted, fun x member => ?_⟩
  obtain ⟨q, before, asks, since⟩ := ordered.asked x member
  exact ⟨q, before, asks.append more, since⟩

/-- The request frame asks for its parameter. -/
theorem asksPid_requestFrame (pid : UInt8) : asksPid pid (requestFrame pid) = true := by
  have request : isRequest (requestFrame pid) = true := rfl
  rw [asksPid, request, Bool.true_and, decide_eq_true_eq]
  rfl

/-- A step keeps the accepted answers in order. -/
theorem Session.Ordered.step {s : Session} (ordered : s.Ordered) (next : Step) :
    (s.step broadcastId next).Ordered := by
  cases next with
  | forgetEcu => exact ⟨ordered.recorded, ordered.sorted, ordered.asked⟩
  | idle reception => exact ordered.record s.client _
  | request pid bus =>
    rcases @Client.request_cases broadcastId s.client pid bus with ⟨none, _, _⟩ | ⟨f, r, rest, first⟩
    · simp only [Session.step, none]
      exact ordered.record _ _
    · obtain ⟨sunk, taken⟩ := Client.request_firstAnswer first
      obtain ⟨skipped, rfl, _, accepted⟩ := first
      have names := namesPid_of_acceptable accepted
      -- The earlier answers are before the request, and the new one is the last frame that is recorded.
      have earlier (x : Accepted) (member : x ∈ s.accepted) : x.answered < s.log.length :=
        (ordered.recorded x member).lt
      simp only [Session.step, taken, framesOf_consumed]
      refine ⟨fun x member => ?_, ?_, fun x member => ?_⟩
      · rcases List.mem_append.mp member with old | new
        · exact (ordered.recorded x old).append _
        · rw [List.mem_singleton.mp new]
          exact ⟨f, by simp, names⟩
      · refine List.pairwise_append.mpr ⟨ordered.sorted, List.pairwise_singleton _ _, fun x old y new => ?_⟩
        rw [List.mem_singleton.mp new]
        exact Nat.lt_add_right _ (earlier x old)
      · rcases List.mem_append.mp member with old | new
        · obtain ⟨q, before, asks, since⟩ := ordered.asked x old
          refine ⟨q, before, asks.append _, fun y listed less => ?_⟩
          rcases List.mem_append.mp listed with old' | new
          · exact since y old' less
          · rw [List.mem_singleton.mp new] at less
            have := earlier x old
            dsimp only at less
            omega
        · rw [List.mem_singleton.mp new]
          refine ⟨s.log.length, by simp, ⟨requestFrame pid, by simp, asksPid_requestFrame pid⟩,
            fun y listed less => ?_⟩
          rcases List.mem_append.mp listed with old | same
          · exact earlier y old
          · rw [List.mem_singleton.mp same] at less
            exact absurd less (lt_irrefl _)

/-- Every session keeps its accepted answers in order. -/
theorem session_ordered (broadcastId : Option UInt32) (steps : List Step) :
    (session broadcastId steps).Ordered := by
  refine List.foldlRecOn steps _ ?_ fun s ordered next _ => ordered.step next
  exact ⟨by simp [Session.start], by simp [Session.start], by simp [Session.start]⟩

/-- The answer accepted last for a parameter is recorded behind all others for it. -/
theorem Session.Ordered.latest {s : Session} (ordered : s.Ordered) {pid : UInt8} {x : Accepted}
    (last : s.lastAccepted pid = some x) :
    x ∈ s.accepted ∧ x.pid = pid ∧ ∀ y ∈ s.accepted, y.pid = pid → y.answered ≤ x.answered := by
  obtain ⟨before, split⟩ := List.getLast?_eq_some_iff.mp last
  have member : x ∈ s.accepted.filter (·.pid = pid) := by simp [split]
  obtain ⟨listed, own⟩ := List.mem_filter.mp member
  refine ⟨listed, by simpa using own, fun y member' own' => ?_⟩
  have sorted := ordered.sorted.filter (·.pid = pid)
  have among : y ∈ s.accepted.filter (·.pid = pid) := List.mem_filter.mpr ⟨member', by simpa using own'⟩
  rw [split] at sorted among
  rcases List.mem_append.mp among with earlier | same
  · exact ((List.pairwise_append.mp sorted).2.2 y earlier x (by simp)).le
  · rw [List.mem_singleton.mp same]

/-- Between two positions are at least those that are between the second of them and a later one. -/
theorem between_mono {log : List CanFrame} {i k j : Nat} (le : i ≤ k) : between log k j ≤ between log i j :=
  (List.drop_sublist_drop_left _ (Nat.succ_le_succ le)).countP_le

/--
Only strays come in the way of the answer that was accepted last.

An earlier answer for the parameter is before the request of that one, and there is no later one.
-/
theorem undisturbed_stray {s : Session} (ordered : s.Ordered) {pid : UInt8} {x : Accepted}
    (last : s.lastAccepted pid = some x) :
    Undisturbed (s.Stray pid) pid s.log x.answered ↔
      Undisturbed (At (namesPid pid) s.log) pid s.log x.answered := by
  obtain ⟨member, rfl, latest⟩ := ordered.latest last
  constructor
  · rintro ⟨⟨i, soon, first⟩, later⟩
    obtain ⟨q, before, asks, since⟩ := ordered.asked x member
    -- The later of that request and the answer's own has no answer at all in between.
    have own : ∃ k, i ≤ k ∧ q ≤ k ∧ Soon x.pid s.log k x.answered := by
      rcases le_total q i with le | le
      · exact ⟨i, le_rfl, le, soon⟩
      · exact ⟨q, le, le_rfl, before, asks, (between_mono le).trans_lt soon.2.2⟩
    obtain ⟨k, behind, ownBehind, soon⟩ := own
    refine ⟨⟨k, soon, fun j after earlier other => ?_⟩, fun k j after soon other => ?_⟩
    · refine first j (by omega) earlier ⟨other, fun accepted => ?_⟩
      have := since _ accepted earlier
      dsimp only at this
      omega
    · refine later k j after soon ⟨other, fun accepted => ?_⟩
      have := latest _ accepted rfl
      have := soon.1
      dsimp only at *
      omega
  · rintro ⟨⟨i, soon, first⟩, later⟩
    exact ⟨⟨i, soon, fun j after earlier stray => first j after earlier stray.1⟩,
      fun i j after soon stray => later i j after soon stray.1⟩

end Sessions

/--
What is kept for a parameter of a recorded session is the answer that was accepted last, exactly when no
stray comes in its way, or when another record of the same bytes is kept in its place.

The tool has only the text of the recording, and whatever its memory held before.
-/
theorem keeps_last_accepted_iff (broadcastId : Option UInt32) (steps : List Step) (pid : UInt8)
    (x : Accepted) (last : (session broadcastId steps).lastAccepted pid = some x) {recorded : List Stamped}
    (all : recorded.map Stamped.frame = (session broadcastId steps).log)
    (fits : ∀ x ∈ recorded, x.frame.dlc ≤ 8) {interface : Text} (word : Word interface)
    (memory : Nat → Memory) :
    let s := session broadcastId steps
    Keeps (readLog memory (recordFile interface recorded)) pid s.log x.answered ↔
      Undisturbed (s.Stray pid) pid s.log x.answered ∨
        ∃ j, j ≠ x.answered ∧ Undisturbed (At (namesPid pid) s.log) pid s.log j ∧
          ∃ f g, s.log[j]? = some f ∧ s.log[x.answered]? = some g ∧ SameFrame f g := by
  intro s
  have ordered := session_ordered broadcastId steps
  have read := readLog_recordFile word fits memory
  rw [all] at read
  obtain ⟨member, own, -⟩ := ordered.latest last
  have names : At (namesPid pid) s.log x.answered := own ▸ ordered.recorded x member
  rw [undisturbed_stray ordered last, keeps_iff read names]
  constructor
  · rintro ⟨j, undisturbed, same⟩
    -- The record that is kept is the answer itself or another one.
    by_cases itself : j = x.answered
    · exact .inl (itself ▸ undisturbed)
    · exact .inr ⟨j, itself, undisturbed, same⟩
  · rintro (undisturbed | ⟨j, -, undisturbed, same⟩)
    · obtain ⟨g, found, -⟩ := names
      exact ⟨x.answered, undisturbed, g, g, found, found, rfl, rfl, fun _ _ => rfl⟩
    · exact ⟨j, undisturbed, same⟩

/--
Fifteen frames without data and another controller's late answer do not keep the tool from the answer.

The lines of those frames are refused, and the late answer is behind no other request.
-/
theorem keeps_last_accepted_iff_late :
    let steps : List Step :=
      [.request 0x0D (List.replicate 15 (.frame ⟨0x123, 0, Vector.replicate 8 0⟩) ++
          [.frame ⟨0x7E8, 8, #v[0x03, 0x41, 0x0D, 0x58, 0x00, 0x00, 0x00, 0x00]⟩]),
        .idle (.frame ⟨0x7E9, 8, #v[0x03, 0x41, 0x0D, 0x50, 0x00, 0x00, 0x00, 0x00]⟩)]
    let s := session none steps
    ∀ memory, Keeps (readLog memory (recordFile "vcan0".toList (s.log.map fun f => ⟨1, 2, f⟩))) 0x0D s.log 16 := by
  intro steps s memory
  have all : (s.log.map fun f => Stamped.mk 1 2 f).map Stamped.frame = s.log := by
    rw [List.map_map]
    exact List.map_id _
  have undisturbed : Undisturbed (s.Stray 0x0D) 0x0D s.log 16 := by
    refine ⟨⟨0, ⟨by decide, ⟨requestFrame 0x0D, rfl, by decide⟩, by decide⟩, fun j after earlier stray => ?_⟩,
      fun i j after soon => ?_⟩
    · -- Up to the answer there are only the frames without data.
      obtain ⟨⟨f, found, names⟩, -⟩ := stray
      have empty : ∀ j < 16, 0 < j → ∀ f ∈ s.log[j]?, namesPid 0x0D f = false := by decide
      cases names.symm.trans (empty j earlier after f found)
    · obtain ⟨-, ⟨f, found, asks⟩, -⟩ := soon
      have inside : i < 18 := (List.getElem?_eq_some_iff.mp found).1
      obtain rfl : i = 17 := by omega
      obtain rfl := Option.some.inj found
      exact absurd asks (by decide)
  exact (keeps_last_accepted_iff none steps 0x0D ⟨0x0D, 16⟩ (by decide) all (by decide) word_vcan0 memory).mpr
    (.inl undisturbed)

/--
A second controller answers first, and its answer is kept although the client passed it over.

The client has stuck to the controller that answered its discovery, whose answer to the same request
comes next.
-/
theorem keeps_another_answer :
    ¬∀ (broadcastId : Option UInt32) (steps : List Step) (pid : UInt8) (x : Accepted),
      (session broadcastId steps).lastAccepted pid = some x → ∀ recorded : List Stamped,
        recorded.map Stamped.frame = (session broadcastId steps).log → (∀ x ∈ recorded, x.frame.dlc ≤ 8) →
          ∀ interface, Word interface → ∀ memory,
            Keeps (readLog memory (recordFile interface recorded)) pid (session broadcastId steps).log
              x.answered := by
  intro keeps
  let steps : List Step :=
    [.forgetEcu, .request 0x00 [.frame ⟨0x7E8, 8, #v[0x06, 0x41, 0x00, 0x00, 0x08, 0x00, 0x00, 0x00]⟩],
      .request 0x0D [.frame ⟨0x7E9, 8, #v[0x03, 0x41, 0x0D, 0x50, 0x00, 0x00, 0x00, 0x00]⟩,
        .frame ⟨0x7E8, 8, #v[0x03, 0x41, 0x0D, 0x58, 0x00, 0x00, 0x00, 0x00]⟩]]
  let recorded : List Stamped := (session none steps).log.map fun f => ⟨1, 2, f⟩
  let memory : Nat → Memory := fun _ => ⟨⟨.nan, 0, 0, Vector.replicate 8 0⟩, fun _ => 0⟩
  obtain ⟨f, g, kept, found, same⟩ := keeps none steps 0x0D ⟨0x0D, 4⟩ (by decide) recorded (by decide)
    (by decide) "vcan0".toList word_vcan0 memory
  -- What is kept has the identifier of the other controller.
  have other : (answers ((readLog memory (recordFile "vcan0".toList recorded)).map Rec.frame) 0x0D).map
      CanFrame.id = some 0x7E9 := by
    decide +kernel
  rw [kept] at other
  obtain rfl := Option.some.inj found
  exact absurd ((Option.some.inj other).symm.trans same.id) (by decide)

end CanProxy.Replay
