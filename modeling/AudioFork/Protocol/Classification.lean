import AudioFork.Protocol

/-!
# Classification — what becomes of a server message

`ParseServerMessage` sorts the texts of the server.  This module says into which classes, without the
order of the checks and without the narrowing of numbers:

* a text is `Rejected` when it is too long, nests too deep or is not JSON;
* it is a `Control` text of some kind when it is an object whose `type` is the word of that kind;
* a control text is taken when its fields are well formed (`MarkNamed`, `Plays`);
* everything else is the application's.

`json::parse` is the parser of the library: that it discards a text is what "not JSON" means here.
-/

namespace AudioFork
namespace Protocol

/-! ## The classes -/

inductive ControlKind
  | clear
  | disconnect
  | mark
  | startPlayback
  deriving DecidableEq, Repr

def ControlKind.word : ControlKind → Text
  | .clear => ascii "clear"
  | .disconnect => ascii "disconnect"
  | .mark => ascii "mark"
  | .startPlayback => ascii "start_playback"

structure Rejected (lib : JsonLib) (text : Text) : Prop where
  why : maxMessageBytes < text.length ∨ nestingTooDeep text = true ∨ lib.parse text = none

structure Control (lib : JsonLib) (text : Text) (kind : ControlKind)
    (members : List (Text × Json)) : Prop where
  short : text.length ≤ maxMessageBytes
  shallow : nestingTooDeep text = false
  parsed : lib.parse text = some (.object members)
  typed : Json.find (ascii "type") members = some (.string kind.word)

/-- The fields of a mark are well formed. -/
structure MarkNamed (members : List (Text × Json)) (name : Text) : Prop where
  named : Json.find (ascii "name") members = some (.string name)
  nonempty : 1 ≤ name.length
  bounded : name.length ≤ maxMarkNameBytes

/-- An optional number: absent, which reads as zero, or an unsigned integer within bounds. -/
inductive Field (key : String) (low high : Nat) (members : List (Text × Json)) : Nat → Prop where
  | absent (h : Json.find (ascii key) members = none) : Field key low high members 0
  | present (sent : UInt64) (h : Json.find (ascii key) members = some (.unsigned sent))
      (hlow : low ≤ sent.toNat) (hhigh : sent.toNat ≤ high) : Field key low high members sent.toNat

/-- The fields of a `start_playback` are well formed. -/
structure Plays (members : List (Text × Json)) (sampleRate channels : Nat) : Prop where
  rate : Field "rate" minSampleRate maxSampleRate members sampleRate
  channels : Field "channels" 1 2 members channels

/-! ## The fields -/

section Fields

variable {members : List (Text × Json)}

theorem Field.iff_of_unsigned {key : String} {low high n : Nat} {sent : UInt64}
    (hfind : Json.find (ascii key) members = some (.unsigned sent)) :
    Field key low high members n ↔ n = sent.toNat ∧ low ≤ sent.toNat ∧ sent.toNat ≤ high := by
  constructor
  · rintro (h | ⟨sent', h, hlow, hhigh⟩)
    · rw [hfind] at h
      cases h
    · rw [hfind] at h
      cases h
      exact ⟨rfl, hlow, hhigh⟩
  · rintro ⟨rfl, hlow, hhigh⟩
    exact .present sent hfind hlow hhigh

/-- A member that is not an unsigned integer is no field. -/
theorem Field.not_of_other {key : String} {low high : Nat} {value : Json}
    (hfind : Json.find (ascii key) members = some value) (hother : ∀ sent, value ≠ .unsigned sent)
    (n : Nat) : ¬ Field key low high members n := by
  rintro (h | ⟨sent, h, _, _⟩)
  · rw [hfind] at h
    cases h
  · rw [hfind] at h
    exact hother sent (Option.some.inj h)

theorem Field.unique {key : String} {low high n m : Nat} (hn : Field key low high members n)
    (hm : Field key low high members m) : n = m := by
  cases hn with
  | absent h =>
      cases hm with
      | absent _ => rfl
      | present sent h' _ _ =>
          rw [h] at h'
          cases h'
  | present sent h _ _ => exact ((Field.iff_of_unsigned h).mp hm).1.symm

/-- A number sent lies within the bounds and is the number read. -/
theorem Field.sent {key : String} {low high n : Nat} (h : Field key low high members n)
    (hn : n ≠ 0) :
    low ≤ n ∧ n ≤ high ∧
      ∃ sent : UInt64, Json.find (ascii key) members = some (.unsigned sent) ∧ sent.toNat = n := by
  cases h with
  | absent _ => exact absurd rfl hn
  | present sent hfind hlow hhigh => exact ⟨hlow, hhigh, sent, hfind, rfl⟩

/-- The narrowing to 32 bits cannot bring a rate into range: the whole value is bounded too. -/
theorem parseRate_cases (members : List (Text × Json)) :
    (∃ rate, parseRate members = .ok rate ∧
      Field "rate" minSampleRate maxSampleRate members rate) ∨
    (∃ reason, parseRate members = .error reason) ∧
      ∀ rate, ¬ Field "rate" minSampleRate maxSampleRate members rate := by
  have hnarrow : ∀ {n : Nat}, n ≤ maxSampleRate → n % 2 ^ 32 = n := by
    intro n hn
    apply Nat.mod_eq_of_lt
    exact Nat.lt_of_le_of_lt hn (by decide)
  unfold parseRate
  cases hfind : Json.find (ascii "rate") members with
  | none => exact Or.inl ⟨0, rfl, .absent hfind⟩
  | some value =>
      cases value with
      | unsigned sent =>
          simp only
          split
          · rename_i hrange
            refine Or.inr ⟨⟨_, rfl⟩, ?_⟩
            intro rate hfield
            rcases (Field.iff_of_unsigned hfind).mp hfield with ⟨-, hlow, hhigh⟩
            rcases hrange with hinvalid | hlarge
            · rw [hnarrow hhigh] at hinvalid
              exact hinvalid (decide_eq_true ⟨hlow, hhigh⟩)
            · exact absurd hhigh (Nat.not_le.mpr hlarge)
          · rename_i hrange
            rw [not_or, not_not, Nat.not_lt] at hrange
            rcases hrange with ⟨hvalid, hhigh⟩
            rw [hnarrow hhigh] at hvalid ⊢
            exact Or.inl ⟨_, rfl, .present sent hfind (of_decide_eq_true hvalid).1 hhigh⟩
      | _ => exact Or.inr ⟨⟨_, rfl⟩, Field.not_of_other hfind (by simp)⟩

theorem parseChannels_cases (members : List (Text × Json)) :
    (∃ channels, parseChannels members = .ok channels ∧ Field "channels" 1 2 members channels) ∨
    (∃ reason, parseChannels members = .error reason) ∧
      ∀ channels, ¬ Field "channels" 1 2 members channels := by
  unfold parseChannels
  cases hfind : Json.find (ascii "channels") members with
  | none => exact Or.inl ⟨0, rfl, .absent hfind⟩
  | some value =>
      cases value with
      | unsigned sent =>
          simp only
          split
          · rename_i hrange
            refine Or.inr ⟨⟨_, rfl⟩, ?_⟩
            intro channels hfield
            rcases (Field.iff_of_unsigned hfind).mp hfield with ⟨-, hlow, hhigh⟩
            omega
          · rename_i hrange
            have hnarrow : sent.toNat % 2 ^ 8 = sent.toNat := by
              apply Nat.mod_eq_of_lt
              omega
            rw [hnarrow]
            exact Or.inl ⟨_, rfl, .present sent hfind (by omega) (by omega)⟩
      | _ => exact Or.inr ⟨⟨_, rfl⟩, Field.not_of_other hfind (by simp)⟩

theorem parseMark_cases (members : List (Text × Json)) :
    (∃ name, parseMark members = .playbackMark name ∧ MarkNamed members name) ∨
    (∃ reason, parseMark members = .invalidMessage reason) ∧ ∀ name, ¬ MarkNamed members name := by
  unfold parseMark
  cases hfind : Json.find (ascii "name") members with
  | none =>
      refine Or.inr ⟨⟨_, rfl⟩, ?_⟩
      rintro name ⟨h, _, _⟩
      rw [hfind] at h
      cases h
  | some value =>
      cases value with
      | string name =>
          simp only
          split
          · rename_i hlength
            refine Or.inr ⟨⟨_, rfl⟩, ?_⟩
            rintro name' ⟨h, hnonempty, hbounded⟩
            rw [hfind] at h
            cases h
            rcases hlength with hempty | hlong
            · rw [List.isEmpty_iff.mp hempty] at hnonempty
              cases hnonempty
            · exact absurd hbounded (Nat.not_le.mpr hlong)
          · rename_i hlength
            rw [not_or, Nat.not_lt, List.isEmpty_iff] at hlength
            refine Or.inl ⟨name, rfl, ?_⟩
            exact ⟨hfind, List.length_pos_iff.mpr hlength.1, hlength.2⟩
      | _ =>
          refine Or.inr ⟨⟨_, rfl⟩, ?_⟩
          rintro name ⟨h, _, _⟩
          rw [hfind] at h
          cases h

theorem parseStartPlayback_cases (members : List (Text × Json)) :
    (∃ rate channels, parseStartPlayback members = .startPlayback rate channels ∧
      Plays members rate channels) ∨
    (∃ reason, parseStartPlayback members = .invalidMessage reason) ∧
      ∀ rate channels, ¬ Plays members rate channels := by
  unfold parseStartPlayback
  rcases parseRate_cases members with ⟨rate, hrate, hfield⟩ | ⟨⟨reason, herror⟩, hnone⟩
  · rcases parseChannels_cases members with ⟨channels, hchannels, hfield'⟩ | ⟨⟨reason, herror⟩, hnone⟩
    · rw [hrate, hchannels]
      exact Or.inl ⟨rate, channels, rfl, hfield, hfield'⟩
    · rw [hrate, herror]
      exact Or.inr ⟨⟨reason, rfl⟩, fun _ channels h => hnone channels h.channels⟩
  · rw [herror]
    exact Or.inr ⟨⟨reason, rfl⟩, fun rate _ h => hnone rate h.rate⟩

theorem Plays.unique {rate channels rate' channels' : Nat} (h : Plays members rate channels)
    (h' : Plays members rate' channels') : rate = rate' ∧ channels = channels' :=
  ⟨h.rate.unique h'.rate, h.channels.unique h'.channels⟩

theorem MarkNamed.unique {name name' : Text} (h : MarkNamed members name)
    (h' : MarkNamed members name') : name = name' := by
  have hsame := h.named.symm.trans h'.named
  cases hsame
  rfl

end Fields

/-! ## The whole message -/

section Message

variable {lib : JsonLib} {text : Text} {kind : ControlKind} {members : List (Text × Json)}

/-- What becomes of a control text. -/
def ControlKind.answer (members : List (Text × Json)) : ControlKind → ServerMessage
  | .clear => .clearPlayback
  | .disconnect => .serverDisconnect
  | .mark => parseMark members
  | .startPlayback => parseStartPlayback members

theorem parse_rejected (h : Rejected lib text) :
    ∃ reason, parseServerMessage lib text = .invalidMessage reason := by
  unfold parseServerMessage
  split
  · exact ⟨_, rfl⟩
  · split
    · exact ⟨_, rfl⟩
    · rename_i hshort hshallow
      rcases h.why with hlong | hdeep | hnone
      · exact absurd hlong hshort
      · exact absurd hdeep hshallow
      · rw [hnone]
        exact ⟨_, rfl⟩

theorem parse_control (h : Control lib text kind members) :
    parseServerMessage lib text = kind.answer members := by
  have hshort : ¬ text.length > maxMessageBytes := Nat.not_lt.mpr h.short
  simp only [parseServerMessage, if_neg hshort, h.shallow, h.parsed, h.typed]
  cases kind <;> rfl

theorem parse_other (hjson : ¬ Rejected lib text)
    (hother : ∀ kind members, ¬ Control lib text kind members) :
    parseServerMessage lib text = .relayToApp text := by
  have hshort : ¬ text.length > maxMessageBytes := fun hlong => hjson ⟨.inl hlong⟩
  have hshallow : ¬ nestingTooDeep text = true := fun hdeep => hjson ⟨.inr (.inl hdeep)⟩
  simp only [parseServerMessage, if_neg hshort, if_neg hshallow]
  split
  · rename_i hnone
    exact absurd ⟨.inr (.inr hnone)⟩ hjson
  · rename_i members hparsed
    split
    · -- the type is a word, but none of the four
      rename_i type htype
      have hword : ∀ kind : ControlKind, type ≠ kind.word := by
        rintro kind rfl
        exact hother kind members
          ⟨Nat.not_lt.mp hshort, Bool.not_eq_true _ ▸ hshallow, hparsed, htype⟩
      have hclear : type ≠ ascii "clear" := hword .clear
      have hdisconnect : type ≠ ascii "disconnect" := hword .disconnect
      have hmark : type ≠ ascii "mark" := hword .mark
      have hstart : type ≠ ascii "start_playback" := hword .startPlayback
      rw [if_neg hclear, if_neg hdisconnect, if_neg hmark, if_neg hstart]
    · rfl
  · rfl

/-- The answer with the class of the text that calls for it. -/
inductive Answered (lib : JsonLib) (text : Text) : ServerMessage → Prop where
  | rejected (reason : Text) (h : Rejected lib text) : Answered lib text (.invalidMessage reason)
  | badMark (reason : Text) (members : List (Text × Json)) (h : Control lib text .mark members)
      (hbad : ∀ name, ¬ MarkNamed members name) : Answered lib text (.invalidMessage reason)
  | badStart (reason : Text) (members : List (Text × Json))
      (h : Control lib text .startPlayback members)
      (hbad : ∀ sampleRate channels, ¬ Plays members sampleRate channels) :
      Answered lib text (.invalidMessage reason)
  | clear (members : List (Text × Json)) (h : Control lib text .clear members) :
      Answered lib text .clearPlayback
  | disconnect (members : List (Text × Json)) (h : Control lib text .disconnect members) :
      Answered lib text .serverDisconnect
  | mark (members : List (Text × Json)) (name : Text) (h : Control lib text .mark members)
      (hname : MarkNamed members name) : Answered lib text (.playbackMark name)
  | start (members : List (Text × Json)) (sampleRate channels : Nat)
      (h : Control lib text .startPlayback members) (hplays : Plays members sampleRate channels) :
      Answered lib text (.startPlayback sampleRate channels)
  | relay (h : ¬ Rejected lib text) (hother : ∀ kind members, ¬ Control lib text kind members) :
      Answered lib text (.relayToApp text)

theorem Control.answered (h : Control lib text kind members) :
    Answered lib text (kind.answer members) := by
  cases kind with
  | clear => exact .clear members h
  | disconnect => exact .disconnect members h
  | mark =>
      simp only [ControlKind.answer]
      rcases parseMark_cases members with ⟨name, hparse, hname⟩ | ⟨⟨reason, hparse⟩, hbad⟩
      · exact hparse ▸ .mark members name h hname
      · exact hparse ▸ .badMark reason members h hbad
  | startPlayback =>
      simp only [ControlKind.answer]
      rcases parseStartPlayback_cases members with
        ⟨rate, channels, hparse, hplays⟩ | ⟨⟨reason, hparse⟩, hbad⟩
      · exact hparse ▸ .start members rate channels h hplays
      · exact hparse ▸ .badStart reason members h hbad

theorem answered (lib : JsonLib) (text : Text) :
    Answered lib text (parseServerMessage lib text) := by
  by_cases hrejected : Rejected lib text
  · rcases parse_rejected hrejected with ⟨reason, hparse⟩
    exact hparse ▸ .rejected reason hrejected
  by_cases hcontrol : ∃ kind members, Control lib text kind members
  · rcases hcontrol with ⟨kind, members, h⟩
    exact parse_control h ▸ h.answered
  · have hother : ∀ kind members, ¬ Control lib text kind members :=
      fun kind members h => hcontrol ⟨kind, members, h⟩
    exact parse_other hrejected hother ▸ .relay hrejected hother

theorem answered_of {message : ServerMessage} (h : parseServerMessage lib text = message) :
    Answered lib text message :=
  h ▸ answered lib text

theorem parse_mark {name : Text} (h : Control lib text .mark members)
    (hname : MarkNamed members name) : parseServerMessage lib text = .playbackMark name := by
  rw [parse_control h]
  rcases parseMark_cases members with ⟨name', hparse, hname'⟩ | ⟨_, hbad⟩
  · rw [hname.unique hname']
    exact hparse
  · exact absurd hname (hbad name)

theorem parse_start {sampleRate channels : Nat} (h : Control lib text .startPlayback members)
    (hplays : Plays members sampleRate channels) :
    parseServerMessage lib text = .startPlayback sampleRate channels := by
  rw [parse_control h]
  rcases parseStartPlayback_cases members with ⟨rate', channels', hparse, hplays'⟩ | ⟨_, hbad⟩
  · rcases hplays.unique hplays' with ⟨rfl, rfl⟩
    exact hparse
  · exact absurd hplays (hbad sampleRate channels)

theorem parse_invalid_iff (lib : JsonLib) (text : Text) :
    (∃ reason, parseServerMessage lib text = .invalidMessage reason) ↔
      Rejected lib text ∨
      (∃ members, Control lib text .mark members ∧ ∀ name, ¬ MarkNamed members name) ∨
      ∃ members, Control lib text .startPlayback members ∧
        ∀ sampleRate channels, ¬ Plays members sampleRate channels := by
  constructor
  · rintro ⟨reason, hparse⟩
    cases answered_of hparse with
    | rejected _ h => exact Or.inl h
    | badMark _ members h hbad => exact Or.inr (Or.inl ⟨members, h, hbad⟩)
    | badStart _ members h hbad => exact Or.inr (Or.inr ⟨members, h, hbad⟩)
  · rintro (h | ⟨members, h, hbad⟩ | ⟨members, h, hbad⟩)
    · exact parse_rejected h
    · rcases parseMark_cases members with ⟨name, -, hname⟩ | ⟨⟨reason, hparse⟩, -⟩
      · exact absurd hname (hbad name)
      · exact ⟨reason, (parse_control h).trans hparse⟩
    · rcases parseStartPlayback_cases members with ⟨rate, channels, -, hplays⟩ | ⟨⟨reason, hparse⟩, -⟩
      · exact absurd hplays (hbad rate channels)
      · exact ⟨reason, (parse_control h).trans hparse⟩

theorem parse_clear_iff (lib : JsonLib) (text : Text) :
    parseServerMessage lib text = .clearPlayback ↔ ∃ members, Control lib text .clear members := by
  constructor
  · intro hparse
    cases answered_of hparse with
    | clear members h => exact ⟨members, h⟩
  · rintro ⟨members, h⟩
    exact parse_control h

theorem parse_disconnect_iff (lib : JsonLib) (text : Text) :
    parseServerMessage lib text = .serverDisconnect ↔
      ∃ members, Control lib text .disconnect members := by
  constructor
  · intro hparse
    cases answered_of hparse with
    | disconnect members h => exact ⟨members, h⟩
  · rintro ⟨members, h⟩
    exact parse_control h

theorem parse_mark_iff (lib : JsonLib) (text name : Text) :
    parseServerMessage lib text = .playbackMark name ↔
      ∃ members, Control lib text .mark members ∧ MarkNamed members name := by
  constructor
  · intro hparse
    cases answered_of hparse with
    | mark members _ h hname => exact ⟨members, h, hname⟩
  · rintro ⟨members, h, hname⟩
    exact parse_mark h hname

theorem parse_start_iff (lib : JsonLib) (text : Text) (sampleRate channels : Nat) :
    parseServerMessage lib text = .startPlayback sampleRate channels ↔
      ∃ members, Control lib text .startPlayback members ∧ Plays members sampleRate channels := by
  constructor
  · intro hparse
    cases answered_of hparse with
    | start members _ _ h hplays => exact ⟨members, h, hplays⟩
  · rintro ⟨members, h, hplays⟩
    exact parse_start h hplays

theorem parse_relay_iff (lib : JsonLib) (text payload : Text) :
    parseServerMessage lib text = .relayToApp payload ↔
      payload = text ∧ ¬ Rejected lib text ∧ ∀ kind members, ¬ Control lib text kind members := by
  constructor
  · intro hparse
    cases answered_of hparse with
    | relay h hother => exact ⟨rfl, h, hother⟩
  · rintro ⟨rfl, h, hother⟩
    exact parse_other h hother

/-- Every text is in exactly one class, and the class decides the answer.  What a control message
carries is within bounds and, where it is not the default, the very number or name sent. -/
theorem parseServerMessage_classifies (lib : JsonLib) (text : Text) :
    ((∃ reason, parseServerMessage lib text = .invalidMessage reason) ↔
      Rejected lib text ∨
      (∃ members, Control lib text .mark members ∧ ∀ name, ¬ MarkNamed members name) ∨
      ∃ members, Control lib text .startPlayback members ∧
        ∀ sampleRate channels, ¬ Plays members sampleRate channels) ∧
    (parseServerMessage lib text = .clearPlayback ↔ ∃ members, Control lib text .clear members) ∧
    (parseServerMessage lib text = .serverDisconnect ↔
      ∃ members, Control lib text .disconnect members) ∧
    (∀ name, parseServerMessage lib text = .playbackMark name ↔
      ∃ members, Control lib text .mark members ∧ MarkNamed members name) ∧
    (∀ sampleRate channels, parseServerMessage lib text = .startPlayback sampleRate channels ↔
      ∃ members, Control lib text .startPlayback members ∧ Plays members sampleRate channels) ∧
    (∀ payload, parseServerMessage lib text = .relayToApp payload ↔
      payload = text ∧ ¬ Rejected lib text ∧ ∀ kind members, ¬ Control lib text kind members) ∧
    (∀ name, parseServerMessage lib text = .playbackMark name →
      1 ≤ name.length ∧ name.length ≤ 256) ∧
    (∀ sampleRate channels, parseServerMessage lib text = .startPlayback sampleRate channels →
      (sampleRate = 0 ∨ 8000 ≤ sampleRate ∧ sampleRate ≤ 48000) ∧
      (channels = 0 ∨ channels = 1 ∨ channels = 2) ∧
      ∃ members, lib.parse text = some (.object members) ∧
        (sampleRate ≠ 0 → ∃ sent : UInt64,
          Json.find (ascii "rate") members = some (.unsigned sent) ∧ sent.toNat = sampleRate) ∧
        (channels ≠ 0 → ∃ sent : UInt64,
          Json.find (ascii "channels") members = some (.unsigned sent) ∧
            sent.toNat = channels)) := by
  refine ⟨parse_invalid_iff lib text, parse_clear_iff lib text, parse_disconnect_iff lib text,
    parse_mark_iff lib text, parse_start_iff lib text, parse_relay_iff lib text, ?_, ?_⟩
  · intro name hparse
    rcases (parse_mark_iff lib text name).mp hparse with ⟨members, -, hname⟩
    exact ⟨hname.nonempty, hname.bounded⟩
  · intro sampleRate channels hparse
    rcases (parse_start_iff lib text sampleRate channels).mp hparse with ⟨members, h, hplays⟩
    refine ⟨?_, ?_, members, h.parsed, ?_, ?_⟩
    · by_cases hrate : sampleRate = 0
      · exact Or.inl hrate
      · rcases hplays.rate.sent hrate with ⟨hlow, hhigh, -⟩
        exact Or.inr ⟨hlow, hhigh⟩
    · by_cases hchannels : channels = 0
      · exact Or.inl hchannels
      · rcases hplays.channels.sent hchannels with ⟨hlow, hhigh, -⟩
        omega
    · intro hrate
      exact (hplays.rate.sent hrate).2.2
    · intro hchannels
      exact (hplays.channels.sent hchannels).2.2

end Message

end Protocol
end AudioFork
