import MusicAlgebra.Proofs.HastenedPerformance
import MusicAlgebra.Proofs.ScoreContents

/-!
# Failures of performing

Built-in players fail for few reasons, and each of them can be read off the score: a modifier names
an instrument or a player that is not known, a note or a phrase is left to the player of the context
and that one is not known, or a trill asks for more notes than a list can have.  Under a positive
tempo and a volume of the MIDI range there is no other reason; in particular nothing is divided by
zero, however short a phrase is and however many notes a chord has.

The public entry also tells the duration of the whole, which may have too many digits to be written.
-/

namespace MusicAlgebra

open Outcome

variable {players : Registry} {c inside : Context} {failure : PerformFailure}

/-! ## Names -/

namespace PerformFailure

theorem told_of_isWritable [Limits] (writable : failure.isWritable = true) :
    failure.told = failure :=
  if_pos writable

/-- Telling of a failure changes it only if it names what cannot be written. -/
theorem told_eq [Limits] (failure : PerformFailure) :
    failure.told = failure ∨ failure.isWritable = false ∧ failure.told = unwritable := by
  cases writable : failure.isWritable with
  | true => exact .inl (told_of_isWritable writable)
  | false => exact .inr ⟨rfl, if_neg (by simp [writable])⟩

theorem eq_tooManyParts_of_told [Limits] {excess : Excess}
    (told : failure.told = tooManyParts excess) : failure = tooManyParts excess := by
  rcases failure.told_eq with same | ⟨-, unwritable⟩
  · exact same.symm.trans told
  · cases unwritable.symm.trans told

end PerformFailure

/-- Whether a player is registered under a name. -/
def Registry.Has [Limits] (players : Registry) (name : Datum) : Prop :=
  ∃ player, players.resolve name = .ok player

/-- A name that can be looked up is missing if it is not found. -/
theorem Registry.resolve_eq_error [Limits] {name : Datum} (nameable : name.isNameable = true)
    (unresolved : players.resolve name = .error failure) :
    failure = .told (.playerNotFound name) ∧ ¬ players.Has name := by
  constructor
  · unfold resolve at unresolved
    rw [if_pos nameable] at unresolved
    cases name with
    | text text =>
        dsimp only at unresolved
        cases found : players.find? text with
        | none =>
            rw [found] at unresolved
            obtain rfl := Except.error.inj unresolved
            exact (PerformFailure.told_of_isWritable rfl).symm
        | some player =>
            rw [found] at unresolved
            cases unresolved
    | _ => exact (Except.error.inj unresolved).symm
  · rintro ⟨player, resolved⟩
    cases unresolved.symm.trans resolved

/-- Whether a modifier names something that is known, if it names anything. -/
def Modifier.Resolves [Limits] (players : Registry) : Modifier → Prop
  | instrument given => (Instrument.ofDatum? given).isSome = true
  | player name => players.Has name
  | _ => True

theorem Context.resolves_of_under [Limits] {modifier : Modifier}
    (derived : c.under players modifier = .ok inside) : modifier.Resolves players := by
  cases derives_of_under derived with
  | instrument named =>
      rw [Modifier.Resolves, named]
      rfl
  | player found => exact ⟨_, found⟩
  | _ => trivial

/-! ## What a score needs -/

namespace Music

/-- Whether every note and every phrase stands below a modifier that selects a player. -/
def Led : Music → Prop
  | note _ => False
  | rest _ => True
  | sequential left right => left.Led ∧ right.Led
  | parallel left right => left.Led ∧ right.Led
  | modified (.player _) _ => True
  | modified (.phrase _) _ => False
  | modified _ inner => inner.Led

/-- Whether everything that a score names is known, when it is handed to a player. -/
structure Performable [Limits] (players : Registry) (player : Datum) (m : Music) : Prop where
  resolved : ∀ modifier ∈ m.modifiers, modifier.Resolves players
  led : players.Has player ∨ m.Led

/-- Whether an instrument or a player is named by a number that cannot be written. -/
def NamesUnwritable [Limits] (player : Datum) (m : Music) : Prop :=
  ∃ given, given.isWritable = false ∧
    (.instrument given ∈ m.modifiers ∨ .player given ∈ m.modifiers ∨ given = player)

theorem performable_sequential [Limits] {player : Datum} {left right : Music} :
    Performable players player (sequential left right) ↔
      Performable players player left ∧ Performable players player right := by
  constructor
  · rintro ⟨resolved, led⟩
    rw [modifiers_sequential, List.forall_mem_append] at resolved
    rw [Led, or_and_left] at led
    exact ⟨⟨resolved.1, led.1⟩, ⟨resolved.2, led.2⟩⟩
  · rintro ⟨first, second⟩
    exact ⟨List.forall_mem_append.2 ⟨first.resolved, second.resolved⟩,
      or_and_left.2 ⟨first.led, second.led⟩⟩

theorem performable_parallel [Limits] {player : Datum} {left right : Music} :
    Performable players player (parallel left right) ↔
      Performable players player left ∧ Performable players player right := by
  rw [← performable_sequential]
  exact ⟨fun whole => ⟨whole.resolved, whole.led⟩, fun whole => ⟨whole.resolved, whole.led⟩⟩

/-- The failures that can be read off a score that is handed to a player. -/
inductive Fault [Limits] (players : Registry) (player : Datum) (m : Music) :
    PerformFailure → Prop where
  | instrument {given : Datum} (member : .instrument given ∈ m.modifiers)
      (unknown : Instrument.ofDatum? given = none) :
      Fault players player m (.told (.unknownInstrument given))
  | selected {name : Datum} (member : .player name ∈ m.modifiers) (missing : ¬ players.Has name) :
      Fault players player m (.told (.playerNotFound name))
  /-- Some note or phrase is left to the player of the context. -/
  | leader (unled : ¬ m.Led) (missing : ¬ players.Has player) :
      Fault players player m (.told (.playerNotFound player))
  | trill {speed : TrillSpeed} {total : Rat} {excess : Excess}
      (member : .trill speed ∈ m.attributes)
      (split : Event.trillPieces total speed = .error excess) :
      Fault players player m (.tooManyParts excess)

variable {player : Datum} {m inner : Music} {modifier : Modifier}

/-- The faults of a passage are faults of the whole. -/
theorem Fault.mono [Limits] (contained : ∀ modifier ∈ inner.modifiers, modifier ∈ m.modifiers)
    (led : m.Led → inner.Led) (fault : Fault players player inner failure) :
    Fault players player m failure := by
  cases fault with
  | instrument member unknown => exact .instrument (contained _ member) unknown
  | selected member missing => exact .selected (contained _ member) missing
  | leader unled missing => exact .leader (fun whole => unled (led whole)) missing
  | trill member split =>
      obtain ⟨phrase, phraseMem, member⟩ := List.mem_flatMap.1 member
      exact .trill (List.mem_flatMap.2 ⟨phrase, contained _ phraseMem, member⟩) split

/-- Under a modifier that selects a player a passage is not left to the one of the context. -/
theorem Fault.modified [Limits] (derived : c.under players modifier = .ok inside)
    (fault : Fault players inside.player inner failure) :
    Fault players c.player (modified modifier inner) failure := by
  have contained : ∀ other ∈ inner.modifiers, other ∈ (Music.modified modifier inner).modifiers :=
    fun other member => List.mem_cons_of_mem modifier member
  cases Context.derives_of_under derived with
  | player found =>
      cases fault with
      | leader unled missing => exact absurd ⟨_, found⟩ missing
      | instrument member unknown => exact .instrument (contained _ member) unknown
      | selected member missing => exact .selected (contained _ member) missing
      | trill member split =>
          exact .trill (List.mem_append_right _ member) split
  | _ => exact fault.mono contained id

theorem Fault.of_under [Limits] (plain : ∀ attributes, modifier ≠ .phrase attributes)
    (nameable : ∀ name, modifier = .player name → name.isNameable = true)
    (failed : c.under players modifier = .error failure) :
    Fault players c.player (Music.modified modifier inner) failure := by
  cases modifier with
  | instrument given =>
      simp only [Context.under] at failed
      split at failed
      · cases failed
      · rename_i unknown
        obtain rfl := Except.error.inj failed
        exact .instrument List.mem_cons_self unknown
  | player name =>
      cases unresolved : players.resolve name with
      | error missing =>
          obtain ⟨rfl, absent⟩ := Registry.resolve_eq_error (nameable name rfl) unresolved
          rw [Context.under, unresolved] at failed
          obtain rfl := Except.error.inj failed
          exact .selected List.mem_cons_self absent
      | ok player =>
          rw [Context.under, unresolved] at failed
          cases failed
  | phrase attributes => exact absurd rfl (plain attributes)
  | _ => cases failed

/-- Only a trill fails for the number of its notes. -/
theorem Fault.exists_trill [Limits] {excess : Excess}
    (fault : Fault players player m (.tooManyParts excess)) :
    ∃ speed total, .trill speed ∈ m.attributes ∧ Event.trillPieces total speed = .error excess := by
  generalize failed : PerformFailure.tooManyParts excess = failure at fault
  cases fault with
  | instrument | selected | leader => cases PerformFailure.eq_tooManyParts_of_told failed.symm
  | trill member split =>
      cases failed
      exact ⟨_, _, member, split⟩

/-- Any other failure names what is unknown, if it can be written. -/
theorem Fault.named [Limits] (fault : Fault players player m failure)
    (untrilled : ∀ excess, failure ≠ .tooManyParts excess) :
    (∃ given, failure = .unknownInstrument given) ∨ (∃ name, failure = .playerNotFound name) ∨
      failure = .unwritable ∧ m.NamesUnwritable player := by
  cases fault with
  | @instrument given member =>
      rcases PerformFailure.told_eq (.unknownInstrument given) with same | ⟨unwritable, told⟩
      · exact .inl ⟨given, same⟩
      · exact .inr (.inr ⟨told, given, unwritable, .inl member⟩)
  | @selected name member =>
      rcases PerformFailure.told_eq (.playerNotFound name) with same | ⟨unwritable, told⟩
      · exact .inr (.inl ⟨name, same⟩)
      · exact .inr (.inr ⟨told, name, unwritable, .inr (.inl member)⟩)
  | leader =>
      rcases PerformFailure.told_eq (.playerNotFound player) with same | ⟨unwritable, told⟩
      · exact .inr (.inl ⟨player, same⟩)
      · exact .inr (.inr ⟨told, player, unwritable, .inr (.inr rfl)⟩)
  | trill => exact absurd rfl (untrilled _)

/-- A score that needs nothing unknown has no fault but a trill. -/
theorem Performable.tooManyParts_of_fault [Limits] (performable : Performable players player m)
    (fault : Fault players player m failure) : ∃ excess, failure = .tooManyParts excess := by
  cases fault with
  | instrument member unknown =>
      have known := performable.resolved _ member
      rw [Modifier.Resolves, unknown] at known
      cases known
  | selected member missing => exact absurd (performable.resolved _ member) missing
  | leader unled missing => exact (performable.led.elim missing unled).elim
  | trill member split => exact ⟨_, rfl⟩

end Music

/-! ## Contexts in which notes can be played -/

/-- A context in which every note can be played by whoever its player is. -/
structure Context.Ready (c : Context) : Prop where
  moving : 0 < c.tempo
  loud : 0 ≤ c.volume ∧ c.volume ≤ 127
  named : c.player.isNameable = true

namespace Context.Ready

theorem under [Limits] {modifier : Modifier} (ready : c.Ready)
    (derived : c.under players modifier = .ok inside) : inside.Ready := by
  have moving := under_tempo_pos derived ready.moving
  cases derives_of_under derived with
  | @player name player found =>
      have nameable : name.isNameable = true := by
        by_contra unusable
        unfold Registry.resolve at found
        rw [if_neg unusable] at found
        cases found
      exact ⟨moving, ready.loud, nameable⟩
  | dynamics delta =>
      exact ⟨moving, ⟨Volume.clamp_nonneg _, Volume.clamp_le _⟩, ready.named⟩
  | _ => exact ⟨moving, ready.loud, ready.named⟩

theorem withLoudness (ready : c.Ready) (attributes : List Attribute) :
    (c.withLoudness attributes).Ready := by
  induction attributes generalizing c with
  | nil => exact ready
  | cons shaping attributes ih =>
      apply ih
      dsimp only
      split
      · rename_i volume sets
        exact ⟨ready.moving, ⟨Int.natCast_nonneg _, Int.ofNat_le.2 (Nat.le_of_lt_succ volume.isLt)⟩,
          ready.named⟩
      · exact ready

/-- Notes have volumes of the MIDI range, and so has the context. -/
theorem exists_playNote (ready : c.Ready) (style : Style) (n : Note) :
    ∃ e, style.playNote n c = .ok e := by
  have loud : (n.volume.val : Int).natAbs ≤ 127 := by omega
  have context_loud : c.volume.natAbs ≤ 127 := by
    have := ready.loud
    omega
  rw [Style.playNote, literalEvent, scale_of_pos ready.moving,
    scaleVolume_of_le loud context_loud]
  exact ⟨_, rfl⟩

end Context.Ready

/-! ## Phrases -/

namespace Performance

variable {style : Style} {p : Performance}

/-- No attribute fails but a trill. -/
theorem trill_of_shape [Limits] {shaping : Attribute}
    (failed : p.shape (.builtIn style) c shaping = .error failure) :
    ∃ speed total excess, shaping = .trill speed ∧
      Event.trillPieces total speed = .error excess ∧ failure = .tooManyParts excess := by
  cases shaping with
  | trill speed =>
      cases style with
      | fancy =>
          obtain interpreted | ⟨events, -, returned⟩ := bind_eq_error.1 failed
          · cases trilled : Event.trillAll p.events c.key speed with
            | ok events =>
                simp only [Player.interpretPhrase, Style.interpretPhrase, Style.interpretFancy,
                  trilled] at interpreted
                cases interpreted
            | error excess =>
                simp only [Player.interpretPhrase, Style.interpretPhrase, Style.interpretFancy,
                  trilled] at interpreted
                cases interpreted
                obtain ⟨e, -, single⟩ := exists_of_mapM_error (map_eq_error.1 trilled)
                exact ⟨speed, e.duration, excess, rfl, map_eq_error.1 single, rfl⟩
          · cases returned
      | _ => cases failed
  | _ => cases style <;> cases failed

theorem trill_of_shapeAll [Limits] {attributes : List Attribute}
    (failed : p.shapeAll (.builtIn style) c attributes = .error failure) :
    ∃ speed total excess, .trill speed ∈ attributes ∧
      Event.trillPieces total speed = .error excess ∧ failure = .tooManyParts excess := by
  obtain run | ⟨shaped, -, returned⟩ := bind_eq_error.1 failed
  · obtain ⟨before, shaping, member, step⟩ := exists_of_foldlM_error run
    obtain ⟨speed, total, excess, rfl, split, rfl⟩ := trill_of_shape step
    exact ⟨speed, total, excess, member, split, rfl⟩
  · cases returned

end Performance

/-- Whether a trill is asked for by a number of notes that a list can have. -/
def TrillSpeed.Storable [Limits] : TrillSpeed → Prop
  | byLength _ => False
  | byCount count _ => count ≤ Limits.mostParts

theorem TrillSpeed.Storable.exists_pieces [Limits] {speed : TrillSpeed} (storable : speed.Storable)
    (total : Rat) : ∃ pieces, Event.trillPieces total speed = .ok pieces := by
  cases speed with
  | byLength length => cases storable
  | byCount count pos =>
      rw [Event.trillPieces, evenPieces?, partCount_of_le storable]
      exact ⟨_, rfl⟩

/-! ## Scores -/

namespace Music

open Performance

variable {m : Music}

/-- Every failure can be read off the score. -/
theorem fault_of_performPairwise [Limits] (builtIn : players.BuiltIn) (ready : c.Ready)
    (nameable : ∀ name, .player name ∈ m.modifiers → name.isNameable = true)
    (failed : m.performPairwise players c = .error failure) :
    Fault players c.player m failure := by
  induction m generalizing c with
  | note n =>
      obtain unresolved | ⟨player, resolved, played⟩ := bind_eq_error.1 failed
      · obtain ⟨rfl, missing⟩ := Registry.resolve_eq_error ready.named unresolved
        exact .leader id missing
      · obtain ⟨style, rfl⟩ := builtIn c.player player resolved
        obtain ⟨e, sounded⟩ := ready.exists_playNote style n
        rw [Player.playNote, sounded] at played
        cases played
  | rest length => cases failed
  | sequential left right leftIH rightIH =>
      rcases error_of_pair failed with first | second
      · have fault := leftIH ready
          (fun name member => nameable name (List.mem_append_left _ member)) first
        exact fault.mono (fun _ => List.mem_append_left _) And.left
      · have entered : Context.Ready
            { c with startTime := c.startTime + left.duration.val / c.tempo } :=
          ⟨ready.moving, ready.loud, ready.named⟩
        have fault := rightIH entered
          (fun name member => nameable name (List.mem_append_right _ member)) second
        exact fault.mono (fun _ => List.mem_append_right _) And.right
  | parallel left right leftIH rightIH =>
      rcases error_of_pair failed with first | second
      · have fault := leftIH ready
          (fun name member => nameable name (List.mem_append_left _ member)) first
        exact fault.mono (fun _ => List.mem_append_left _) And.left
      · have fault := rightIH ready
          (fun name member => nameable name (List.mem_append_right _ member)) second
        exact fault.mono (fun _ => List.mem_append_right _) And.right
  | modified modifier inner ih =>
      have innerNameable : ∀ name, .player name ∈ inner.modifiers → name.isNameable = true :=
        fun name member => nameable name (List.mem_cons_of_mem modifier member)
      by_cases phrased : ∃ attributes, modifier = .phrase attributes
      · -- A phrase looks for its player after its passage, even if the passage is silent.
        obtain ⟨attributes, rfl⟩ := phrased
        obtain passage | ⟨events, -, failed⟩ := bind_eq_error.1 failed
        · rw [← Context.withLoudness_player attributes]
          exact (ih (ready.withLoudness attributes) innerNameable passage).mono
            (fun other member => List.mem_cons_of_mem _ member) False.elim
        · obtain unresolved | ⟨player, resolved, failed⟩ := bind_eq_error.1 failed
          · rw [Context.withLoudness_player] at unresolved
            obtain ⟨rfl, missing⟩ := Registry.resolve_eq_error ready.named unresolved
            exact .leader id missing
          · obtain ⟨style, rfl⟩ := builtIn _ player resolved
            obtain ⟨speed, total, excess, member, split, rfl⟩ :=
              trill_of_shapeAll (map_eq_error.1 failed)
            exact .trill (List.mem_append_left _ member) split
      · have plain := not_exists.1 phrased
        rw [performPairwise_modified players inner c plain] at failed
        obtain underived | ⟨inside, derived, failed⟩ := bind_eq_error.1 failed
        · exact .of_under plain
            (fun name selects => nameable name (selects ▸ List.mem_cons_self)) underived
        · exact (ih (ready.under derived) innerNameable failed).modified derived

/-- What has been performed needed nothing unknown. -/
theorem performable_of_performPairwise [Limits] {passage : List Event}
    (read : m.performPairwise players c = .ok passage) : Performable players c.player m := by
  induction m generalizing c passage with
  | note n =>
      obtain ⟨player, resolved, -⟩ := bind_eq_ok.1 read
      exact ⟨List.forall_mem_nil _, .inl ⟨player, resolved⟩⟩
  | rest length => exact ⟨List.forall_mem_nil _, .inr trivial⟩
  | sequential left right leftIH rightIH =>
      obtain ⟨first, firstRead, read⟩ := bind_eq_ok.1 read
      obtain ⟨second, secondRead, read⟩ := bind_eq_ok.1 read
      have entered := rightIH secondRead
      exact performable_sequential.2 ⟨leftIH firstRead, entered⟩
  | parallel left right leftIH rightIH =>
      obtain ⟨first, firstRead, read⟩ := bind_eq_ok.1 read
      obtain ⟨second, secondRead, read⟩ := bind_eq_ok.1 read
      exact performable_parallel.2 ⟨leftIH firstRead, rightIH secondRead⟩
  | modified modifier inner ih =>
      by_cases phrased : ∃ attributes, modifier = .phrase attributes
      · obtain ⟨attributes, rfl⟩ := phrased
        obtain ⟨unshaped, innerRead, read⟩ := bind_eq_ok.1 read
        obtain ⟨player, resolved, -⟩ := bind_eq_ok.1 read
        rw [Context.withLoudness_player] at resolved
        exact ⟨List.forall_mem_cons.2 ⟨trivial, (ih innerRead).resolved⟩, .inl ⟨player, resolved⟩⟩
      · rw [performPairwise_modified players inner c (not_exists.1 phrased)] at read
        obtain ⟨inside, derived, read⟩ := bind_eq_ok.1 read
        refine ⟨List.forall_mem_cons.2 ⟨Context.resolves_of_under derived, (ih read).resolved⟩, ?_⟩
        cases Context.derives_of_under derived with
        | player found => exact .inr trivial
        | _ => exact (ih read).led

/-- Which scores are performed.  A score that names no unknown instrument and no unknown player, and
leaves no note and no phrase to an unknown player of the context, is performed unless a trill asks
for more notes than a list can have, and no other score is performed.  Every failure is one of these
faults, and names what is unknown as far as that can be written.  The public entry fails besides
where the duration cannot be written, and only there. -/
theorem perform_fails_by_fault [Limits] (builtIn : players.BuiltIn) (m : Music) (ready : c.Ready)
    (nameable : ∀ name, .player name ∈ m.modifiers → name.isNameable = true) :
    (∀ failure, m.perform players c = .error failure → Fault players c.player m failure) ∧
      ((∃ p, m.perform players c = .ok p) ↔
        Performable players c.player m ∧
          ∀ excess, m.perform players c ≠ .error (.tooManyParts excess)) ∧
      ((∀ speed, .trill speed ∈ m.attributes → speed.Storable) →
        ((∃ p, m.perform players c = .ok p) ↔ Performable players c.player m) ∧
          ∀ failure, m.perform players c = .error failure →
            (∃ given, failure = .unknownInstrument given) ∨
              (∃ name, failure = .playerNotFound name) ∨
              failure = .unwritable ∧ m.NamesUnwritable c.player) ∧
      (∀ p, (Operand.music m).perform players c = .ok p ↔
        m.perform players c = .ok p ∧ Number.isWritable (m.duration.val / c.tempo) = true) ∧
      ∀ failure, (Operand.music m).perform players c = .error failure ↔
        m.perform players c = .error failure ∨
          failure = .unwritableDuration ∧ (∃ p, m.perform players c = .ok p) ∧
            Number.isWritable (m.duration.val / c.tempo) = false := by
  have faulty : ∀ failure, m.perform players c = .error failure →
      Fault players c.player m failure := by
    intro failure failed
    rw [perform_eq_pairwise builtIn.playsInOrder m ready.moving, map_eq_error] at failed
    exact fault_of_performPairwise builtIn ready nameable failed
  have performed_iff : (∃ p, m.perform players c = .ok p) ↔
      Performable players c.player m ∧
        ∀ excess, m.perform players c ≠ .error (.tooManyParts excess) := by
    constructor
    · rintro ⟨p, performed⟩
      have read := ((perform_eq_ok_iff builtIn.playsInOrder ready.moving).1 performed).1
      exact ⟨performable_of_performPairwise read, by simp [performed]⟩
    · rintro ⟨performable, untrilled⟩
      cases performed : m.perform players c with
      | ok p => exact ⟨p, rfl⟩
      | error failure =>
          obtain ⟨excess, rfl⟩ := performable.tooManyParts_of_fault (faulty failure performed)
          exact absurd performed (untrilled excess)
  refine ⟨faulty, performed_iff, ?_, fun p => operand_perform_eq_ok ready.moving,
    fun failure => operand_perform_eq_error ready.moving⟩
  intro storable
  have untrilled : ∀ excess, m.perform players c ≠ .error (.tooManyParts excess) := by
    intro excess failed
    obtain ⟨speed, total, member, split⟩ := (faulty _ failed).exists_trill
    obtain ⟨pieces, stored⟩ := (storable speed member).exists_pieces total
    cases split.symm.trans stored
  constructor
  · exact performed_iff.trans (and_iff_left untrilled)
  · intro failure failed
    refine (faulty failure failed).named fun excess parts => ?_
    exact untrilled excess (parts ▸ failed)

/-- The passage with every effect, handed to a player of its own. -/
def ledPassage : Music :=
  modified (.player (.text "ringing")) (modified (.instrument (.text "Violin")) ornatePassage)

/-- A context whose player nobody knows. -/
def leaderless : Context := { player := .text "absent" }

open Usual

/-- The passage is performed where it has a player, and fails where it has none. -/
theorem ledPassage_performed :
    ringingPlayers.BuiltIn ∧ leaderless.Ready ∧
      (∀ name, .player name ∈ ledPassage.modifiers → name.isNameable = true) ∧
      (∀ speed, .trill speed ∈ ledPassage.attributes → speed.Storable) ∧
      Performable ringingPlayers leaderless.player ledPassage ∧
      (∃ p, ledPassage.perform ringingPlayers leaderless = .ok p) ∧
      ¬ ∃ p, ornatePassage.perform ringingPlayers leaderless = .ok p := by
  have ready : leaderless.Ready := by
    constructor
    · decide +kernel
    · decide
    · rfl
  have nameable : ∀ name, .player name ∈ ledPassage.modifiers → name.isNameable = true := by
    simp [ledPassage, ornatePassage, quarter, Datum.isNameable]
  have storable : ∀ speed, .trill speed ∈ ledPassage.attributes → speed.Storable := by
    simp [ledPassage, ornatePassage, quarter, attributes, Modifier.attributes, TrillSpeed.Storable,
      Limits.mostParts]
  have performable : Performable ringingPlayers leaderless.player ledPassage := by
    refine ⟨?_, .inr trivial⟩
    have violin : (Instrument.ofDatum? (.text "Violin")).isSome = true := by decide +kernel
    have ringing : ringingPlayers.Has (.text "ringing") := ⟨_, rfl⟩
    simp [ledPassage, ornatePassage, quarter, Modifier.Resolves, violin, ringing]
  have succeeds := (perform_fails_by_fault ringingPlayers_builtIn ledPassage ready nameable).2.2.1
    storable
  have fails := (perform_fails_by_fault ringingPlayers_builtIn ornatePassage ready
    fun name member => nameable name (List.mem_cons_of_mem _ (List.mem_cons_of_mem _ member))).2.1
  refine ⟨ringingPlayers_builtIn, ready, nameable, storable, performable, succeeds.1.2 performable,
    ?_⟩
  intro performed
  rcases (fails.1 performed).1.led with ⟨player, resolved⟩ | led
  · cases resolved
  · exact led

/-- A silence of a duration with too many digits. -/
def endlessRest : Music := rest (.nearest (10 ^ 4300))

theorem unwritable_rest :
    Performable ringingPlayers ({} : Context).player endlessRest ∧
      (∃ p, endlessRest.perform ringingPlayers {} = .ok p) ∧
      (Operand.music endlessRest).perform ringingPlayers {} = .error .unwritableDuration := by
  have moving : 0 < ({} : Context).tempo := by decide +kernel
  have performed : ∃ p, endlessRest.perform ringingPlayers {} = .ok p :=
    exists_of_isOk (by decide +kernel)
  have endless : Number.isWritable (endlessRest.duration.val / ({} : Context).tempo) = false := by
    decide +kernel
  exact ⟨⟨List.forall_mem_nil _, .inr trivial⟩, performed,
    (operand_perform_eq_error moving).2 (.inr ⟨rfl, performed, endless⟩)⟩

end Music

end MusicAlgebra
