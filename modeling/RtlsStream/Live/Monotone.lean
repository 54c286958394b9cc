/-
  Live/Monotone.lean --- what is shown never goes back in time.

  Within a session the browser keeps the newer of two positions of a tag.  Across
  sessions the map is replaced without a comparison; what makes this safe is that
  everything shown was committed before the new session read its snapshot
  (`CoversMap` of `Live.HandOff`), and that the live table never goes back either.
-/
import RtlsStream.Live.HandOff

set_option autoImplicit false

namespace RtlsStream.Live

open RtlsStream.Foundation RtlsStream.Python RtlsStream.Store

section

variable [Runtime] [Postgres]

omit [Runtime] [Postgres] in
/-- Every tag shown stays, at the same time or a later one. -/
def NoEarlier (before after : Client) : Prop :=
  ∀ tag p, before.positions.find? tag = some p →
    ∃ q, after.positions.find? tag = some q ∧ p.ts ≤ q.ts

omit [Runtime] [Postgres] in
theorem NoEarlier.refl (c : Client) : NoEarlier c c :=
  fun _ p hp => ⟨p, hp, le_rfl⟩

omit [Runtime] [Postgres] in
theorem NoEarlier.trans {c d e : Client} (h : NoEarlier c d) (h' : NoEarlier d e) :
    NoEarlier c e := by
  intro tag p hp
  obtain ⟨q, hq, hle⟩ := h tag p hp
  obtain ⟨q', hq', hle'⟩ := h' tag q hq
  exact ⟨q', hq', hle.trans hle'⟩

/-- A snapshot that covers the map takes nothing back. -/
theorem noEarlier_snapshot {c : Client} {rows : List Row} (hmap : CoversMap rows c)
    (hkey : (rows.map (·.tagId)).Nodup) (hfirst : c.gotSnapshot = false) :
    NoEarlier c (c.onMessage (.snapshot rows)) := by
  intro tag p hp
  by_cases hread : (c.onMessage (.snapshot rows)).gotSnapshot = true
  · obtain ⟨r, hr, rfl, hle⟩ := hmap tag p hp
    exact ⟨_, shows_onMessage_snapshot hkey hfirst hread hr, hle⟩
  · -- a snapshot that cannot be read leaves the map as it is
    have hsame : (c.onMessage (.snapshot rows)).positions = c.positions := by
      unfold Client.onMessage at hread ⊢
      split
      · rename_i hparse
        simp [hparse, hfirst] at hread
      · rfl
    exact ⟨p, by rwa [hsame], le_rfl⟩

/-- No message takes the map back. -/
theorem HandOff.noEarlier {published : List LiveEnvelope} {S : Session} {c : Client}
    (h : HandOff published S c) {m : Message} {rest : List Message} (hwire : S.wire = m :: rest)
    (hkey : ∀ rows, Message.snapshot rows ∈ S.wire → (rows.map (·.tagId)).Nodup) :
    NoEarlier c (c.onMessage m) := by
  cases h with
  | early _ hempty => simp [hwire] at hempty
  | read rows _ hempty => simp [hwire] at hempty
  | sent rows envelopes _ hfull hgot _ hmap _ =>
    have hkeys : (rows.map (·.tagId)).Nodup := hkey rows (by simp [hfull])
    rw [hfull] at hwire
    obtain ⟨rfl, rfl⟩ := List.cons.inj hwire
    exact noEarlier_snapshot hmap hkeys hgot
  | live rows envelopes _ hfull _ _ _ =>
    rw [hfull] at hwire
    cases envelopes with
    | nil => cases hwire
    | cons e envelopes =>
      obtain ⟨rfl, rfl⟩ := List.cons.inj hwire
      exact fun _ _ hp => Client.onMessage_envelope_mono hp

theorem noEarlier_step {s t : State} (hreach : machine.Reachable s) (hstep : Step s t) :
    NoEarlier s.client t.client := by
  cases hstep with
  | receive hS hwire =>
    exact (handOff hreach _ hS).noEarlier hwire
      fun rows hrows => (((sourced hreach).session _ hS).snapshot rows hrows).1
  | connect _ => exact fun _ p hp => ⟨p, hp, le_rfl⟩
  | commit | publish | abandon | subscribe | readSnapshot | sendSnapshot | skip | forward | close =>
    exact .refl _

/-- Along every run the time shown for a tag never decreases and a tag once shown stays,
whatever is committed, published, dropped by a full queue, closed and reconnected. -/
theorem positions_never_go_back :
    ∀ s, machine.Reachable s → ∀ t, Relation.ReflTransGen Step s t →
      ∀ tag p, s.client.positions.find? tag = some p →
        ∃ q, t.client.positions.find? tag = some q ∧ p.ts ≤ q.ts := by
  intro s hreach t hrun
  refine Machine.run_induction (M := machine) (R := fun s t => NoEarlier s.client t.client)
    hreach (.refl _) ?_ hrun
  intro u v hu hsofar hstep
  exact hsofar.trans (noEarlier_step hu hstep)

end

section Examples

attribute [local instance] asciiRuntime ownTypes

/-- A tag shown at 2000 is not taken back by a late envelope of 1000 and a reconnect. -/
theorem positions_never_go_back_reconnect :
    ∃ t, machine.Reachable t ∧ t.db.events.length = 2 ∧
      ∃ q, t.client.positions.find? (text "00A320") = some q ∧
        (Binary64.nearest 2000).value ≤ q.ts := by
  let newer := liveAt 2000 (by decide +kernel)
  let older := liveAt 1000 (by decide +kernel)
  let start : State := ⟨.empty, [], [], [], none, ⟨.empty, false, false⟩⟩
  have h₁ : machine.Reachable (start.delivered newer 1).connected :=
    Machine.Reachable.trans (.start rfl) (run_connected (run_delivered .refl newer 1))
  have hrun : Relation.ReflTransGen Step (start.delivered newer 1).connected
      ((start.delivered newer 1).connected.delivered older 2).connected :=
    run_connected (run_delivered .refl older 2)
  have hsettled : Settled (start.delivered newer 1).connected ⟨_, [], false, []⟩ :=
    ⟨rfl, by decide +kernel, by decide +kernel, rfl, rfl, rfl,
      by simp [start, State.delivered, State.connected]⟩
  obtain ⟨p, hp, hle⟩ :=
    shows_of_settled h₁ hsettled (e := newer) List.mem_cons_self (by decide)
  obtain ⟨q, hq, hle'⟩ := positions_never_go_back _ h₁ _ hrun (text "00A320") p hp
  exact ⟨_, h₁.trans hrun, rfl, q, hq, hle.trans hle'⟩

end Examples

end RtlsStream.Live
