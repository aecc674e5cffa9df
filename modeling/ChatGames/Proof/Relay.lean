import ChatGames.Proof.Discipline

/-!
# Relaying

What `processSendMessage` posts reaches the other players of the sender's lobby, each once, tagged
with the sender's id. While two disciplined sessions are in a lobby together, the frames with the
first one's tag in the second one's queue are what the first one sent, in order.
-/

namespace ChatGames.Server

section Definitions

variable {Sid : Type} [DecidableEq Sid]

/-- The frame is a relayed message of the player of this id. -/
def TaggedRelay (id : Nat) (frame : Bytes) : Prop :=
  IsRelay frame ∧ relayTag frame = some (UInt8.ofNat id)

instance (id : Nat) (frame : Bytes) : Decidable (TaggedRelay id frame) :=
  inferInstanceAs (Decidable (_ ∧ _))

/-- `S` and `M` are in the lobby, `S` under this id. -/
def Joint (s : Server Sid) (S M : Sid) (L : LobbyRef) (id : Nat) : Prop :=
  s.EntryAt S L id ∧ s.Occurs M L

instance (s : Server Sid) (S M : Sid) (L : LobbyRef) (id : Nat) :
    Decidable (s.Joint S M L id) :=
  inferInstanceAs (Decidable (_ ∧ _))

/-- What `S` sends with this event while `M` is connected. -/
def sentTo (s : Server Sid) (S M : Sid) : Event Sid → List Bytes
  | .message T (.sendMessage msg) _ => if T = S ∧ (s.sessions M).alive then [msg] else []
  | _ => []

variable [Fintype Sid]

/-- The payloads that `S` sends in the run from `s`, those at which `M` is connected. -/
def sentDuring (S M : Sid) : Server Sid → List (Event Sid) → List Bytes
  | _, [] => []
  | s, e :: events => s.sentTo S M e ++
      match (serverSystem Sid).step s e with
      | some s' => sentDuring S M s' events
      | none => []

end Definitions

variable {Sid : Type} [DecidableEq Sid] [Fintype Sid] {s s' : Server Sid} {e : Event Sid}
  {S M : Sid} {L : LobbyRef} {id : Nat}

/-! ### One step -/

omit [Fintype Sid] in
theorem Orderly.filter_connection (hord : s.Orderly) (hinv : s.Inv)
    (halive : (s.sessions M).alive = true) {player : Player Sid}
    (hplayer : player ∈ (s.lobbies L).players) (hM : player.connection = M) :
    (s.lobbies L).players.filter (·.connection = M) = [player] := by
  refine (hinv.valid L).filter_eq_singleton hplayer (decide_eq_true hM) ?_
  intro other hother hother'
  obtain ⟨-, hid⟩ := hord.agrees M halive L player.id ⟨player, hplayer, hM, rfl⟩
  obtain ⟨-, hid'⟩ := hord.agrees M halive L other.id
    ⟨other, hother, of_decide_eq_true hother', rfl⟩
  exact Option.some.inj (hid'.symm.trans hid)

theorem Step.posted_sendMessage {msg : Bytes} {draws : List Bytes}
    (h : Step s (.message S (.sendMessage msg) draws) s')
    (hlobby : (s.sessions S).lobby = some L) (hid : (s.sessions S).playerId = some id) (T : Sid) :
    s.posted s' T = if (s.sessions T).alive then
      postsTo ((s.lobbies L).players.filter (·.id ≠ id)) T (encodeRelayMessage id msg) else [] := by
  cases h with
  | @sendMessage _ _ _ L' id' hidle hlobby' hplayer =>
      obtain rfl : L' = L := Option.some.inj (hlobby'.symm.trans hlobby)
      obtain rfl : id' = id := Option.some.inj (hplayer.symm.trans hid)
      exact posted_of_eq (by simp)
  | setLobbyLocked hidle hmsg => simp at hmsg
  | nothing hidle hmsg => simp [hlobby] at hmsg

omit [Fintype Sid] in
theorem postsTo_member (hinv : s.Inv) (hord : s.Orderly) (hjoint : s.Joint S M L id) (hne : S ≠ M)
    (halive : (s.sessions M).alive = true) (data : Bytes) :
    postsTo ((s.lobbies L).players.filter (·.id ≠ id)) M data = [packet data] := by
  obtain ⟨hS, _, player, hplayer, hM, rfl⟩ := hjoint
  have hid : player.id ≠ id := by
    rintro rfl
    exact hne (hinv.entryAt_unique hS ⟨player, hplayer, hM, rfl⟩)
  rw [postsTo, List.filter_comm, hord.filter_connection hinv halive hplayer hM]
  simp [hid]

omit [DecidableEq Sid] [Fintype Sid] in
theorem Inv.eq_of_tag_eq (hinv : s.Inv) {id' : Nat} (hS : s.EntryAt S L id)
    (hM : s.EntryAt M L id') (htag : UInt8.ofNat id = UInt8.ofNat id') : id = id' := by
  have hid := hinv.toId_eq hS
  have hid' := hinv.toId_eq hM
  have hmod := congrArg UInt8.toNat htag
  rw [UInt8.toNat_ofNat', UInt8.toNat_ofNat'] at hmod
  calc id = id % 2 ^ 8 := hid.symm
    _ = id' % 2 ^ 8 := hmod
    _ = id' := hid'

theorem Step.posted_own {msg : Bytes} {draws : List Bytes}
    (h : Step s (.message S (.sendMessage msg) draws) s') (hinv : s.Inv) (hord : s.Orderly)
    (hjoint : s.Joint S M L id) (hne : S ≠ M) :
    s.posted s' M =
      (s.sentTo S M (.message S (.sendMessage msg) draws)).map fun msg =>
        packet (encodeRelayMessage id msg) := by
  obtain ⟨hlobby, hid⟩ := hord.agrees S h.idle.1 L id hjoint.1
  rw [h.posted_sendMessage hlobby hid, sentTo]
  by_cases halive : (s.sessions M).alive = true
  · rw [if_pos halive, if_pos ⟨rfl, halive⟩, postsTo_member hinv hord hjoint hne halive]
    rfl
  · simp [halive]

/-- What another session relays to `M` has another tag: it goes to the one lobby that `M` is in, and
the ids there differ. -/
theorem Step.untagged_of_ne {T : Sid} {msg : Bytes} {draws : List Bytes}
    (h : Step s (.message T (.sendMessage msg) draws) s') (hinv : s.Inv) (hord : s.Orderly)
    (hdisc : s.Disciplined (.message T (.sendMessage msg) draws)) (hjoint : s.Joint S M L id)
    (hT : T ≠ S) {frame : Bytes} (hframe : frame ∈ s.posted s' M) : ¬TaggedRelay id frame := by
  intro htagged
  have hidle := h.idle
  obtain ⟨id', hid'⟩ := Option.ne_none_iff_exists'.mp hdisc
  obtain ⟨L', hL'⟩ := Option.ne_none_iff_exists'.mp (hord.placed T hidle.1 hdisc)
  rw [h.posted_sendMessage hL' hid'] at hframe
  split at hframe
  · rename_i halive
    obtain ⟨rfl, player, hplayer, hM⟩ := mem_postsTo hframe
    obtain ⟨hmem, -⟩ := List.mem_filter.mp hplayer
    obtain ⟨idM, hentry⟩ := hjoint.2
    obtain ⟨hlobby, -⟩ := hord.agrees M halive L idM hentry
    obtain ⟨hlobby', -⟩ := hord.agrees M halive L' player.id ⟨player, hmem, hM, rfl⟩
    obtain rfl : L' = L := Option.some.inj (hlobby'.symm.trans hlobby)
    have hown := hord.sound T hidle.settled L' id' hL' hid'
    have htag : UInt8.ofNat id' = UInt8.ofNat id := by
      have htag := htagged.2
      rw [relayTag_encodeRelayMessage] at htag
      exact Option.some.inj htag
    obtain rfl := hinv.eq_of_tag_eq hown hjoint.1 htag
    exact hT (hinv.entryAt_unique hown hjoint.1)
  · exact absurd hframe List.not_mem_nil

/-- During a joint membership a step puts frames with the sender's tag in the other's queue for what
the sender sends by it, and for nothing else. -/
theorem Step.posted_tagged (h : Step s e s') (hinv : s.Inv) (hord : s.Orderly)
    (hdisc : s.Disciplined e) (hjoint : s.Joint S M L id) (hne : S ≠ M) :
    (s.posted s' M).filter (TaggedRelay id) =
      (s.sentTo S M e).map fun msg => packet (encodeRelayMessage id msg) := by
  by_cases hsend : ∃ T msg draws, e = .message T (.sendMessage msg) draws
  · obtain ⟨T, msg, draws, rfl⟩ := hsend
    by_cases hT : T = S
    · subst hT
      rw [h.posted_own hinv hord hjoint hne, List.filter_eq_self]
      intro frame hframe
      obtain ⟨msg, -, rfl⟩ := List.mem_map.mp hframe
      simp [TaggedRelay, IsRelay]
    · have hsent : s.sentTo S M (.message T (.sendMessage msg) draws) = [] :=
        if_neg fun hcond => hT hcond.1
      rw [hsent, List.map_nil, List.filter_eq_nil_iff]
      intro frame hframe htagged
      exact h.untagged_of_ne hinv hord hdisc hjoint hT hframe (of_decide_eq_true htagged)
  · have hsent : s.sentTo S M e = [] := by
      cases e with
      | message T msg draws =>
          cases msg with
          | sendMessage msg => exact absurd ⟨T, msg, draws, rfl⟩ hsend
          | _ => rfl
      | resume | disconnect => rfl
    rw [hsent, List.map_nil, List.filter_eq_nil_iff]
    intro frame hframe htagged
    have hrelay : IsRelay frame := (of_decide_eq_true htagged : TaggedRelay id frame).1
    rcases h.mayPost hinv hframe with ⟨lobbyId, id', -, -, rfl⟩ | ⟨lobby, rfl⟩ |
      ⟨msg, draws, -, -, he, -⟩
    · simp [IsRelay] at hrelay
    · simp [IsRelay] at hrelay
    · exact hsend ⟨_, msg, draws, he⟩

/-- A `sendMessage` posts nothing to its own session and nothing outside its lobby. -/
theorem Step.posted_eq_nil {msg : Bytes} {draws : List Bytes}
    (h : Step s (.message S (.sendMessage msg) draws) s') (hord : s.Orderly)
    (hlobby : (s.sessions S).lobby = some L) {T : Sid} (hT : T = S ∨ ¬s.Occurs T L) :
    s.posted s' T = [] := by
  obtain ⟨id, hid⟩ : ∃ id, (s.sessions S).playerId = some id := by
    cases h with
    | sendMessage hidle hlobby' hplayer => exact ⟨_, hplayer⟩
    | setLobbyLocked hidle hmsg => simp at hmsg
    | nothing hidle hmsg => simp [hlobby] at hmsg
  rw [h.posted_sendMessage hlobby hid]
  split
  · rename_i halive
    apply List.eq_nil_iff_forall_not_mem.mpr
    intro frame hframe
    obtain ⟨-, player, hplayer, hconnection⟩ := mem_postsTo hframe
    obtain ⟨hmem, hne⟩ := List.mem_filter.mp hplayer
    have hentry : s.EntryAt T L player.id := ⟨player, hmem, hconnection, rfl⟩
    rcases hT with rfl | hnone
    · obtain ⟨-, hid'⟩ := hord.agrees T halive L player.id hentry
      have heq : player.id = id := Option.some.inj (hid'.symm.trans hid)
      simp [heq] at hne
    · exact hnone ⟨player.id, hentry⟩
  · rfl

/-! ### Runs -/

theorem posted_run_tagged (hne : S ≠ M) {events : List (Event Sid)} (hinv : s.Inv)
    (hord : s.Orderly) (hrun : (serverSystem Sid).runFrom s events = some s')
    (hsteps : (serverSystem Sid).Throughout (fun s e => s.Disciplined e ∧ s.Joint S M L id) s
      events) :
    ∃ frames, (s'.sessions M).sendQueue = (s.sessions M).sendQueue ++ frames ∧
      frames.filter (TaggedRelay id) =
        (sentDuring S M s events).map fun msg => packet (encodeRelayMessage id msg) := by
  induction events generalizing s with
  | nil =>
      obtain rfl : s = s' := Option.some.inj hrun
      exact ⟨[], (List.append_nil _).symm, rfl⟩
  | cons e events ih =>
      obtain ⟨s₁, hstep, hrest⟩ := TransitionSystem.runFrom_cons_eq_some.mp hrun
      obtain ⟨⟨hdisc, hjoint⟩, hafter⟩ := hsteps
      have hs := step_of_system hstep
      obtain ⟨frames, hframes, htagged⟩ := ih (inv_step hs hinv) (hs.orderly hinv hord hdisc) hrest
        (hafter s₁ hstep)
      refine ⟨s.posted s₁ M ++ frames, ?_, ?_⟩
      · rw [hframes, hs.sendQueue hinv, List.append_assoc]
      · rw [List.filter_append, htagged, hs.posted_tagged hinv hord hdisc hjoint hne, sentDuring,
          hstep, List.map_append]

/-- **Relaying.** In a disciplined run, while `S` and `M` are in a lobby together, the relayed
messages with `S`'s tag that come into `M`'s queue are what `S` sends while `M` is connected, each
once and in order. Nothing a session sends comes back to it or leaves its lobby. -/
theorem relay_exact (h : (serverSystem Sid).ReachableWhile Disciplined s) :
    (∀ S M L id events s', S ≠ M → (serverSystem Sid).runFrom s events = some s' →
        (serverSystem Sid).Throughout (fun s e => s.Disciplined e ∧ s.Joint S M L id) s events →
          (s.posted s' M).filter (TaggedRelay id) =
            (sentDuring S M s events).map fun msg => packet (encodeRelayMessage id msg)) ∧
      ∀ S L msg draws s', (s.sessions S).lobby = some L →
        (serverSystem Sid).step s (.message S (.sendMessage msg) draws) = some s' →
          ∀ T, T = S ∨ ¬s.Occurs T L → s.posted s' T = [] := by
  obtain ⟨hinv, hord⟩ := inv_and_orderly h
  constructor
  · intro S M L id events s' hne hrun hsteps
    obtain ⟨frames, hframes, htagged⟩ := posted_run_tagged hne hinv hord hrun hsteps
    rw [posted_of_eq hframes, htagged]
  · intro S L msg draws s' hlobby hstep T hT
    exact (step_of_system hstep).posted_eq_nil hord hlobby hT

/-- Two players talk; the second has in its queue what the first said. -/
theorem relay_exact_two : ∃ s s' : Server (Fin 2),
    (serverSystem (Fin 2)).runFrom s [.message 0 (.sendMessage [1]) [],
      .message 1 (.sendMessage [2]) [], .message 0 (.sendMessage [3]) []] = some s' ∧
      (s.posted s' 1).filter (TaggedRelay 0) =
        [packet (encodeRelayMessage 0 [1]), packet (encodeRelayMessage 0 [3])] := by
  have hrun : ((serverSystem (Fin 2)).runWhile Disciplined
      [.message 0 (.createLobby [97]) [[120]], .resume 0,
        .message 1 (.joinLobby [98] [120]) [], .resume 1]).any (fun s =>
      let events := [.message 0 (.sendMessage [1]) [], .message 1 (.sendMessage [2]) [],
        .message 0 (.sendMessage [3]) []]
      ((serverSystem (Fin 2)).runFrom s events).isSome && decide
        ((serverSystem (Fin 2)).Throughout (fun s e => s.Disciplined e ∧ s.Joint 0 1 0 0) s events ∧
          sentDuring 0 1 s events = [[1], [3]])) = true := by
    decide
  obtain ⟨s, hs, hstate⟩ := (Option.any_eq_true _ _).mp hrun
  obtain ⟨hsome, hdecide⟩ := Bool.and_eq_true_iff.mp hstate
  obtain ⟨s', hs'⟩ := Option.isSome_iff_exists.mp hsome
  obtain ⟨hsteps, hsent⟩ := of_decide_eq_true hdecide
  refine ⟨s, s', hs', ?_⟩
  have hrelay := (relay_exact (TransitionSystem.reachableWhile_of_runWhile hs)).1 0 1 0 0 _ s'
    (by decide) hs' hsteps
  rw [hrelay, hsent]
  rfl

end ChatGames.Server
