import ChatGames.Proof.Invariant
import Mathlib.Data.Finset.Card
import Mathlib.Order.Interval.Finset.Nat

/-!
# The lobby registry

Entries are never erased and the names in them never given again, so a lookup answers for one lobby
in the whole history of the server, and a weak pointer that cannot be locked belongs to a name that
nobody has any more. `toLower` returns what it is given, so a lobby answers to its name as spelled.
-/

namespace ChatGames.Server

section Definitions

variable {Sid : Type}

/-- The registry has an entry for each lobby created so far, under its name, and no other. -/
def Registered (s : Server Sid) : Prop :=
  ∀ key L, s.registry.lookup key = some L ↔ L < s.created ∧ toLower (s.lobbies L).name = key

variable [Fintype Sid]

/-- What a caller of `LobbyContext` can rely on between two calls. -/
structure RegistrySound [DecidableEq Sid] (s : Server Sid) : Prop where
  unique : ∀ L L', s.Live L → s.Live L' → (s.lobbies L).name = (s.lobbies L').name → L = L'
  found : ∀ L, s.Live L → s.getLobby (s.lobbies L).name = some L
  lookup : ∀ name L, s.getLobby name = some L → s.Live L ∧ (s.lobbies L).name = name

omit [Fintype Sid] in
/-- What a call of `createLobby` comes to that draws the names `draws` one after the other. -/
structure CreatesNew (s : Server Sid) (draws : List Bytes) : Prop where
  /-- The call returns at the first name that no lobby has had so far. -/
  returns : (s.freshName draws).isSome ↔ ∃ name ∈ draws, ∀ L < s.created, (s.lobbies L).name ≠ name
  /-- It cannot go on drawing names for longer than there are lobbies to have them. -/
  bounded : s.created < draws.toFinset.card → (s.freshName draws).isSome
  distinct : ∀ name, s.freshName draws = some name → ∀ L, s.Live L →
    (s.createLobby name).1 ≠ L ∧ (s.lobbies L).name ≠ name
  named : ∀ name, s.freshName draws = some name →
    (s.createLobby name).2.lobbies (s.createLobby name).1 = Lobby.new name

end Definitions

variable {Sid : Type} [DecidableEq Sid] [Fintype Sid] {s s' : Server Sid} {e : Event Sid}

/-! ### One step -/

theorem Step.registry_cases (h : Step s e s') :
    (s'.registry = s.registry ∧ s'.created = s.created) ∨
      ∃ name, s.registry.lookup (toLower name) = none ∧
        s'.registry = (toLower name, s.created) :: s.registry ∧ s'.created = s.created + 1 ∧
        s'.lobbies s.created = Lobby.new name := by
  cases h with
  | @createLobby S playerName name draws hidle hname =>
      have hfree := List.find?_some hname
      exact Or.inr ⟨name, by simpa using hfree, rfl, rfl, by simp⟩
  | _ => exact Or.inl ⟨by simp, by simp⟩

theorem Step.name_eq (h : Step s e s') (hinv : s.Inv) {L : LobbyRef} (hL : L < s.created) :
    (s'.lobbies L).name = (s.lobbies L).name := by
  have hchange := h.lobbyChange L
  generalize s'.lobbies L = lobby at hchange
  cases hchange with
  | same | lockSet => rfl
  | created hnew => exact absurd hnew (Nat.ne_of_lt hL)
  | left _ _ _ _ hremove =>
      obtain ⟨rfl, -⟩ := Lobby.removePlayer_eq_ok (hinv.valid L) hremove
      rfl
  | entered _ _ _ _ hadd => exact ((hinv.valid L).added hadd).name_eq

theorem Step.registered (h : Step s e s') (hinv : s.Inv) (hreg : s.Registered) :
    s'.Registered := by
  intro key L
  rcases h.registry_cases with ⟨hregistry, hcreated⟩ | ⟨name, hfree, hregistry, hcreated, hnew⟩
  · rw [hregistry, hcreated, hreg key L]
    apply and_congr_right
    intro hL
    rw [h.name_eq hinv hL]
  · rw [hregistry, hcreated, List.lookup_cons]
    by_cases hL : L = s.created
    · subst hL
      have hnone : s.registry.lookup key ≠ some s.created := fun hlookup =>
        absurd ((hreg key _).mp hlookup).1 (Nat.lt_irrefl _)
      rw [hnew]
      by_cases hkey : key = toLower name
      · simp [hkey, Lobby.new]
      · have hne : (key == toLower name) = false := by simpa using hkey
        simpa [hne, hnone, Lobby.new] using Ne.symm hkey
    · have hold : (L < s.created + 1 ∧ toLower (s'.lobbies L).name = key) ↔
          s.registry.lookup key = some L := by
        rw [hreg key L, Nat.lt_succ_iff_lt_or_eq, or_iff_left hL]
        apply and_congr_right
        intro hlt
        rw [h.name_eq hinv hlt]
      rw [hold]
      by_cases hkey : key = toLower name
      · -- the name that was drawn has no entry yet
        rw [hkey, beq_self_eq_true, hfree]
        exact iff_of_false (fun heq => hL (Option.some.inj heq).symm) (by simp)
      · have hne : (key == toLower name) = false := by simpa using hkey
        rw [hne]

/-! ### What follows for a state -/

omit [DecidableEq Sid] [Fintype Sid] in
theorem Registered.eq_of_key_eq (h : s.Registered) {L L' : LobbyRef} (hL : L < s.created)
    (hL' : L' < s.created) (hkey : toLower (s.lobbies L).name = toLower (s.lobbies L').name) :
    L = L' := by
  have hlookup := (h _ L).mpr ⟨hL, rfl⟩
  have hlookup' := (h _ L').mpr ⟨hL', hkey.symm⟩
  exact Option.some.inj (hlookup.symm.trans hlookup')

theorem Registered.sound (h : s.Registered) (hinv : s.Inv) : s.RegistrySound where
  unique L L' hL hL' hname :=
    h.eq_of_key_eq (hinv.live_lt hL) (hinv.live_lt hL') (congrArg toLower hname)
  found L hL := by
    rw [getLobby, (h _ L).mpr ⟨hinv.live_lt hL, rfl⟩]
    exact if_pos hL
  lookup name L hget := by
    rw [getLobby] at hget
    split at hget
    · rename_i L' hlookup
      split at hget
      · rename_i hlive
        obtain rfl := Option.some.inj hget
        exact ⟨hlive, ((h _ L').mp hlookup).2⟩
      · cases hget
    · cases hget

omit [Fintype Sid] [DecidableEq Sid] in
theorem Registered.free_iff (h : s.Registered) (name : Bytes) :
    (s.registry.lookup (toLower name)).isNone = true ↔
      ∀ L < s.created, (s.lobbies L).name ≠ name := by
  rw [Option.isNone_iff_eq_none, Option.eq_none_iff_forall_ne_some]
  apply forall_congr'
  intro L
  rw [ne_eq, h, not_and]
  rfl

omit [DecidableEq Sid] [Fintype Sid] in
theorem Registered.createsNew (h : s.Registered) (hinv : s.Inv) (draws : List Bytes) :
    s.CreatesNew draws := by
  have hreturns : (s.freshName draws).isSome ↔
      ∃ name ∈ draws, ∀ L < s.created, (s.lobbies L).name ≠ name := by
    rw [freshName, List.find?_isSome]
    simp only [h.free_iff]
  refine ⟨hreturns, ?_, ?_, ?_⟩
  · intro hmany
    apply hreturns.mpr
    by_contra htaken
    push Not at htaken
    -- each draw is then the name of one of the lobbies
    have hsubset : draws.toFinset ⊆ (Finset.range s.created).image fun L => (s.lobbies L).name := by
      intro name hname
      obtain ⟨L, hL, hLname⟩ := htaken name (List.mem_toFinset.mp hname)
      exact Finset.mem_image.mpr ⟨L, Finset.mem_range.mpr hL, hLname⟩
    have hcard := (Finset.card_le_card hsubset).trans Finset.card_image_le
    rw [Finset.card_range] at hcard
    exact absurd hmany hcard.not_gt
  · intro name hname L hL
    have hlt := hinv.live_lt hL
    have hnone : (s.registry.lookup (toLower name)).isNone = true :=
      List.find?_some (p := fun name => (s.registry.lookup (toLower name)).isNone) hname
    have hfree := (h.free_iff name).mp hnone
    exact ⟨Nat.ne_of_gt hlt, hfree L hlt⟩
  · intro name _
    exact createLobby_lobbies_self s name

/-! ### Runs -/

omit [DecidableEq Sid] [Fintype Sid] in
theorem registered_init : (init : Server Sid).Registered := by
  intro key L
  simp [init]

theorem registered_of_reachable (h : (serverSystem Sid).Reachable s) : s.Inv ∧ s.Registered :=
  inv_and_of_reachableWhile registered_init (fun hstep hinv hreg _ => hstep.registered hinv hreg) h

/-- **The registry.** Whatever was created, looked up and abandoned before: names of live lobbies
differ, a live lobby is found by its name, what is found is alive and has that very name, and a call
of `createLobby` returns a lobby that is none of those in use, under a name that none of them has.
-/
theorem registry_sound (h : (serverSystem Sid).Reachable s) :
    s.RegistrySound ∧ ∀ draws, s.CreatesNew draws := by
  obtain ⟨hinv, hreg⟩ := registered_of_reachable h
  exact ⟨hreg.sound hinv, hreg.createsNew hinv⟩

/-- The first draw of the second creator is taken, and stays taken when its lobby dies. -/
theorem registry_sound_collision : ∃ s : Server (Fin 2),
    (serverSystem (Fin 2)).run [.message 0 (.createLobby [97]) [[120]], .resume 0,
      .message 1 (.createLobby [98]) [[120], [121]], .resume 1, .disconnect 0] = some s ∧
      s.getLobby [120] = none ∧ s.getLobby [121] = some 1 ∧ (s.lobbies 1).name = [121] ∧
      ¬(s.freshName [[120]]).isSome := by
  have hrun : ((serverSystem (Fin 2)).run [.message 0 (.createLobby [97]) [[120]], .resume 0,
      .message 1 (.createLobby [98]) [[120], [121]], .resume 1, .disconnect 0]).any (fun s =>
        decide (s.getLobby [120] = none ∧ s.getLobby [121] = some 1 ∧ s.created = 2 ∧
          (s.lobbies 0).name = [120])) = true := by
    decide
  obtain ⟨s, hs, hstate⟩ := (Option.any_eq_true _ _).mp hrun
  obtain ⟨hgone, hfound, hcreated, hname⟩ := of_decide_eq_true hstate
  obtain ⟨hsound, hcreates⟩ := registry_sound (TransitionSystem.reachable_of_run hs)
  refine ⟨s, hs, hgone, hfound, (hsound.lookup _ _ hfound).2, ?_⟩
  rw [(hcreates [[120]]).returns]
  simp only [List.mem_singleton, exists_eq_left, not_forall, not_not]
  exact ⟨0, by rw [hcreated]; exact Nat.zero_lt_two, hname⟩

end ChatGames.Server
