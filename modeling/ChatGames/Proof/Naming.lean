import ChatGames.Proof.Registry

/-!
# Names of lobbies

`createLobby` draws names until it gets one that is not a key of `lobbies_`, and keys stay there
when the lobbies they belong to are gone. `toLower` gives back what it is given, so names that
differ in case only are different keys.
-/

namespace ChatGames

/-- An ASCII letter in lower case, and any other byte as it is. -/
def lowerByte (c : UInt8) : UInt8 := if 65 ≤ c ∧ c ≤ 90 then c + 32 else c

/-- Equal up to the case of letters. -/
def SameLetters (a b : Bytes) : Prop := a.map lowerByte = b.map lowerByte

instance (a b : Bytes) : Decidable (SameLetters a b) := inferInstanceAs (Decidable (_ = _))

/-- `getRandomLobbyName` can return the name. -/
def RandomName (adjectives nouns : List Bytes) (name : Bytes) : Prop :=
  ∃ adjective ∈ adjectives, ∃ noun ∈ nouns, name = adjective ++ noun

/-- No two names the words make are equal up to case. -/
def CaseDistinct (adjectives nouns : List Bytes) : Prop :=
  ∀ x y, RandomName adjectives nouns x → RandomName adjectives nouns y → SameLetters x y → x = y

instance (adjectives nouns : List Bytes) (name : Bytes) :
    Decidable (RandomName adjectives nouns name) :=
  inferInstanceAs (Decidable (∃ adjective ∈ adjectives, ∃ noun ∈ nouns, name = adjective ++ noun))

namespace Server

section Definitions

variable {Sid : Type}

/-- The draws of an event are names made of the words. -/
def DrawsNames (adjectives nouns : List Bytes) (_s : Server Sid) : Event Sid → Prop
  | .message _ _ draws => ∀ name ∈ draws, RandomName adjectives nouns name
  | .resume _ | .disconnect _ => True

variable (s : Server Sid) (adjectives nouns : List Bytes)

/-- Up to case, no live lobby has the name. -/
def Unused (name : Bytes) : Prop := ∀ L, s.Live L → ¬SameLetters (s.lobbies L).name name

def NameFree : Prop := ∃ name, RandomName adjectives nouns name ∧ s.Unused name

/-- There are random words for which the naming loop exits. -/
def CanFinish : Prop :=
  ∃ draws, (∀ name ∈ draws, RandomName adjectives nouns name) ∧ (s.freshName draws).isSome

/-- Some name has never been that of a lobby. -/
def NeverGiven : Prop :=
  ∃ name, RandomName adjectives nouns name ∧ ∀ L < s.created, (s.lobbies L).name ≠ name

/-- The name of a lobby is available again when, up to case, no live lobby has it. -/
def NamesReturn : Prop :=
  ∀ L < s.created, s.Unused (s.lobbies L).name → (s.freshName [(s.lobbies L).name]).isSome

/-- Every name given so far is, up to case, that of a live lobby. -/
def NoneAbandoned : Prop :=
  ∀ L < s.created, ∃ L', s.Live L' ∧ SameLetters (s.lobbies L').name (s.lobbies L).name

end Definitions

variable {Sid : Type} [DecidableEq Sid] [Fintype Sid] {s s' : Server Sid} {e : Event Sid}
  {adjectives nouns : List Bytes}

/-! ### The naming loop -/

theorem RegistrySound.getLobby_eq_iff (h : s.RegistrySound) {L : LobbyRef} (hL : s.Live L)
    (str : Bytes) : s.getLobby str = some L ↔ str = (s.lobbies L).name := by
  constructor
  · intro hget
    exact (h.lookup str L hget).2.symm
  · rintro rfl
    exact h.found L hL

omit [DecidableEq Sid] [Fintype Sid] in
theorem canFinish_iff (hcreates : ∀ draws, s.CreatesNew draws) :
    s.CanFinish adjectives nouns ↔ s.NeverGiven adjectives nouns := by
  constructor
  · rintro ⟨draws, hdraws, hfresh⟩
    obtain ⟨name, hname, hnew⟩ := (hcreates draws).returns.mp hfresh
    exact ⟨name, hdraws name hname, hnew⟩
  · rintro ⟨name, hname, hnew⟩
    refine ⟨[name], ?_, (hcreates [name]).returns.mpr ⟨name, by simp, hnew⟩⟩
    intro drawn hdrawn
    rwa [List.mem_singleton.mp hdrawn]

omit [DecidableEq Sid] [Fintype Sid] in
/-- A name that was given is never drawn again. -/
theorem freshName_given (hcreates : ∀ draws, s.CreatesNew draws) {L : LobbyRef}
    (hL : L < s.created) : ¬(s.freshName [(s.lobbies L).name]).isSome := by
  intro hfresh
  obtain ⟨name, hname, hnew⟩ := (hcreates _).returns.mp hfresh
  exact hnew L hL (List.mem_singleton.mp hname).symm

omit [DecidableEq Sid] [Fintype Sid] in
theorem namesReturn_iff (hcreates : ∀ draws, s.CreatesNew draws) :
    s.NamesReturn ↔ s.NoneAbandoned := by
  apply forall₂_congr
  intro L hL
  constructor
  · intro hreturn
    by_contra hnone
    apply freshName_given hcreates hL
    apply hreturn
    intro L' hlive hsame
    exact hnone ⟨L', hlive, hsame⟩
  · rintro ⟨L', hlive, hsame⟩ hunused
    exact absurd hsame (hunused L' hlive)

/-- **Naming.** While some name is free the loop can exit exactly when some name has never been
given, and names are available again only for want of a lobby that is gone. -/
theorem naming_iff (h : (serverSystem Sid).Reachable s) (adjectives nouns : List Bytes) :
    ((s.NameFree adjectives nouns → s.CanFinish adjectives nouns) ↔
      (s.NameFree adjectives nouns → s.NeverGiven adjectives nouns)) ∧
    (s.NamesReturn ↔ s.NoneAbandoned) := by
  obtain ⟨-, hcreates⟩ := registry_sound h
  exact ⟨imp_congr_right fun _ => canFinish_iff hcreates, namesReturn_iff hcreates⟩

/-- While its creator is there, the only name is taken; the words make another one. -/
theorem naming_iff_two : ∃ s : Server (Fin 1),
    (serverSystem (Fin 1)).run [.message 0 (.createLobby [106]) [[66, 70]], .resume 0] = some s ∧
      (s.NameFree [[66]] [[70], [71]] → s.CanFinish [[66]] [[70], [71]]) ∧ s.NamesReturn := by
  have hrun : ((serverSystem (Fin 1)).run
      [.message 0 (.createLobby [106]) [[66, 70]], .resume 0]).any (fun s =>
        decide (s.created = 1 ∧ (s.lobbies 0).name = [66, 70] ∧ s.Live 0)) = true := by
    decide
  obtain ⟨s, hs, hstate⟩ := (Option.any_eq_true _ _).mp hrun
  obtain ⟨hcreated, hname, hlive⟩ := of_decide_eq_true hstate
  have hiff := naming_iff (TransitionSystem.reachable_of_run hs) [[66]] [[70], [71]]
  refine ⟨s, hs, hiff.1.mpr fun _ => ⟨[66, 71], by decide, ?_⟩, hiff.2.mpr ?_⟩
  · intro L hL
    obtain rfl : L = 0 := Nat.lt_one_iff.mp (hcreated ▸ hL)
    rw [hname]
    decide
  · intro L hL
    obtain rfl : L = 0 := Nat.lt_one_iff.mp (hcreated ▸ hL)
    exact ⟨0, hlive, rfl⟩

/-- The only lobby is abandoned, and its name is the only one the words make. -/
theorem not_naming : ¬∀ (Sid : Type) [DecidableEq Sid] [Fintype Sid]
    (adjectives nouns : List Bytes) (s : Server Sid), adjectives ≠ [] → nouns ≠ [] →
      (serverSystem Sid).ReachableWhile (DrawsNames adjectives nouns) s →
      (s.NameFree adjectives nouns → s.CanFinish adjectives nouns) ∧ s.NamesReturn := by
  intro h
  let events : List (Event (Fin 1)) :=
    [.message 0 (.createLobby [106]) [[66, 70]], .resume 0, .disconnect 0]
  have hrun : ((serverSystem (Fin 1)).run events).any (fun s =>
      decide (s.created = 1 ∧ (s.lobbies 0).name = [66, 70] ∧
        ∀ S, (s.sessions S).lobby = none)) = true := by
    decide
  obtain ⟨s, hs, hstate⟩ := (Option.any_eq_true _ _).mp hrun
  obtain ⟨hcreated, hname, hgone⟩ := of_decide_eq_true hstate
  have hdraws : ∀ e ∈ events, ∀ s : Server (Fin 1), s.DrawsNames [[66]] [[70]] e := by
    intro e he s
    simp only [events, List.mem_cons, List.not_mem_nil, or_false] at he
    rcases he with rfl | rfl | rfl
    · intro name hmem
      rw [List.mem_singleton.mp hmem]
      decide
    · trivial
    · trivial
  have hreachable := TransitionSystem.reachableWhile_of_run hs hdraws
  have hfree : s.Unused [66, 70] := by
    rintro L ⟨S, hS⟩
    rw [hgone S] at hS
    cases hS
  obtain ⟨-, hcreates⟩ := registry_sound (TransitionSystem.reachable_of_run hs)
  have hfinish := (h (Fin 1) [[66]] [[70]] s (by decide) (by decide) hreachable).1
    ⟨[66, 70], by decide, hfree⟩
  obtain ⟨name, ⟨adjective, hadjective, noun, hnoun, rfl⟩, hnew⟩ :=
    (canFinish_iff hcreates).mp hfinish
  rw [List.mem_singleton.mp hadjective, List.mem_singleton.mp hnoun] at hnew
  exact hnew 0 (by rw [hcreated]; exact Nat.zero_lt_one) hname

/-! ### Capitalisation -/

/-- After one `createLobby` the lobby is live under the name that was drawn. -/
theorem exists_created (S : Sid) {name : Bytes} (hname : RandomName adjectives nouns name) :
    ∃ s : Server Sid, (serverSystem Sid).ReachableWhile (DrawsNames adjectives nouns) s ∧
      s.Live 0 ∧ s.created = 1 ∧ (s.lobbies 0).name = name := by
  let s := ((init : Server Sid).createLobby name).2
  let s' := s.setSession S { s.sessions S with
    lobby := some 0
    pending := some (.createLobby []) }
  have hstep : (serverSystem Sid).step init (.message S (.createLobby []) [name]) = some s' := rfl
  refine ⟨s', .step .init ?_ hstep, ⟨S, ?_⟩, rfl, ?_⟩
  · intro drawn hdrawn
    rwa [List.mem_singleton.mp hdrawn]
  · simp [s']
  · exact congrArg Lobby.name (createLobby_lobbies_self (init : Server Sid) name)

theorem Step.randomName (h : Step s e s') (hinv : s.Inv)
    (hnames : ∀ L < s.created, RandomName adjectives nouns (s.lobbies L).name)
    (hdraws : s.DrawsNames adjectives nouns e) :
    ∀ L < s'.created, RandomName adjectives nouns (s'.lobbies L).name := by
  intro L hL
  by_cases hlt : L < s.created
  · rw [h.name_eq hinv hlt]
    exact hnames L hlt
  · cases h with
    | @createLobby S playerName name draws hidle hname =>
        obtain rfl : L = s.created := by
          have hle : L < s.created + 1 := hL
          exact Nat.le_antisymm (Nat.lt_succ_iff.mp hle) (not_lt.mp hlt)
        simpa [Lobby.new] using hdraws name (List.mem_of_find?_eq_some hname)
    | _ => exact absurd (by simpa using hL) hlt

theorem randomName_of_live
    (h : (serverSystem Sid).ReachableWhile (DrawsNames adjectives nouns) s) {L : LobbyRef}
    (hL : s.Live L) : RandomName adjectives nouns (s.lobbies L).name := by
  have hnames : s.Inv ∧ ∀ L < s.created, RandomName adjectives nouns (s.lobbies L).name :=
    inv_and_of_reachableWhile (fun _ hL => absurd hL (Nat.not_lt_zero _))
      (fun hstep hinv hnames hdraws => hstep.randomName hinv hnames hdraws) h
  exact hnames.2 L (hnames.1.live_lt hL)

/-- **Capitalisation.** A live lobby is found under a capitalisation of its name exactly when that
is the name, and no lobby gets a name that differs from that of a live lobby in case only exactly
when the words do not make two such names. -/
theorem capitalisation_iff (S : Sid) (adjectives nouns : List Bytes) :
    (∀ s, (serverSystem Sid).Reachable s → ∀ L, s.Live L → ∀ str,
      SameLetters str (s.lobbies L).name →
        (s.getLobby str = some L ↔ str = (s.lobbies L).name)) ∧
    ((∀ s, (serverSystem Sid).ReachableWhile (DrawsNames adjectives nouns) s → ∀ draws,
      (∀ name ∈ draws, RandomName adjectives nouns name) → ∀ name, s.freshName draws = some name →
        s.Unused name) ↔ CaseDistinct adjectives nouns) := by
  refine ⟨fun s hs L hL str _ => ((registry_sound hs).1).getLobby_eq_iff hL str, ?_, ?_⟩
  · intro hunused x y hx hy hsame
    by_contra hne
    obtain ⟨s, hs, hlive, hcreated, hname⟩ := exists_created S hx
    obtain ⟨-, hcreates⟩ := registry_sound hs.reachable
    -- `y` has never been given, so the loop exits with it
    have hfresh : s.freshName [y] = some y := by
      have hsome := (hcreates [y]).returns.mpr ⟨y, by simp, fun L hL => by
        obtain rfl : L = 0 := Nat.lt_one_iff.mp (hcreated ▸ hL)
        rwa [hname]⟩
      obtain ⟨name, hfound⟩ := Option.isSome_iff_exists.mp hsome
      have hmem : name ∈ [y] := List.mem_of_find?_eq_some hfound
      rwa [List.mem_singleton.mp hmem] at hfound
    have hdraws : ∀ name ∈ [y], RandomName adjectives nouns name := by
      intro name hmem
      rwa [List.mem_singleton.mp hmem]
    apply hunused s hs [y] hdraws y hfresh 0 hlive
    rwa [hname]
  · intro hdistinct s hs draws hdraws name hfresh L hL hsame
    obtain ⟨-, hcreates⟩ := registry_sound hs.reachable
    obtain ⟨-, hne⟩ := (hcreates draws).distinct name hfresh L hL
    have hdrawn : RandomName adjectives nouns name :=
      hdraws name (List.mem_of_find?_eq_some hfresh)
    exact hne (hdistinct _ _ (randomName_of_live hs hL) hdrawn hsame)

/-- The second player writes the name with a small letter, and is in no lobby. -/
theorem not_capitalisation : ¬∀ (adjectives nouns : List Bytes) (s : Server (Fin 2)),
    (serverSystem (Fin 2)).ReachableWhile (DrawsNames adjectives nouns) s → ∀ L, s.Live L →
      ∀ str, (∀ c ∈ str, c < 128) → SameLetters str (s.lobbies L).name →
        s.getLobby str = some L := by
  intro h
  let events : List (Event (Fin 2)) := [.message 0 (.createLobby [106]) [[66, 70]], .resume 0,
    .message 1 (.joinLobby [107] [98, 70]) []]
  have hrun : ((serverSystem (Fin 2)).run events).any (fun s =>
      decide ((s.lobbies 0).name = [66, 70] ∧ s.Live 0 ∧ s.getLobby [98, 70] = none ∧
        (s.sessions 1).lobby = none)) = true := by
    decide
  obtain ⟨s, hs, hstate⟩ := (Option.any_eq_true _ _).mp hrun
  obtain ⟨hname, hlive, hnone, -⟩ := of_decide_eq_true hstate
  have hdraws : ∀ e ∈ events, ∀ s : Server (Fin 2), s.DrawsNames [[66]] [[70]] e := by
    intro e he s
    simp only [events, List.mem_cons, List.not_mem_nil, or_false] at he
    rcases he with rfl | rfl | rfl
    · intro name hmem
      rw [List.mem_singleton.mp hmem]
      decide
    · trivial
    · exact fun name hmem => absurd hmem List.not_mem_nil
  have hreachable := TransitionSystem.reachableWhile_of_run hs hdraws
  have hsame : SameLetters [98, 70] (s.lobbies 0).name := by
    rw [hname]
    decide
  have hfound := h [[66]] [[70]] s hreachable 0 hlive [98, 70] (by decide +kernel) hsame
  rw [hnone] at hfound
  cases hfound

end Server

end ChatGames
