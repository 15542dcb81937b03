import CrossNook.Net.TlsMachine

/-!
# What a TLS connection is opened with

A connection carries data only when everything that BearSSL needs to validate the server has been
told to it: all certificates of a bounded CA file, the name of the service, the wall clock and a full
seed. Whatever fails on the way, the socket is closed and the caller is told a failure.

## Main definitions

* `TlsSimple.Objects`: what the PEM decoder has reported
* `TlsSimple.Loaded`: the anchors are those of the CA file
* `TlsSimple.Trusted`: the handshake was set up with the configuration
* `TlsSimple.Shaken`: the handshake is through

## Main results

* `TlsSimple.data_only_when_trusted`: no record is exchanged without `Trusted`, no data without
  `Shaken`
* `TlsSimple.socket_closed_once`: the socket is closed once, and not used after that
-/

namespace TlsSimple

open EventMachine (run)
open NetSimple (TlsResult)

/-! ## What has been read -/

/-- What the PEM decoder has reported: whether an object is open and is a certificate, its data so
far, the data of the certificates that have ended, and whether there was an error. -/
structure Objects where
  inObj : Bool
  isCert : Bool
  data : List UInt8
  certificates : List (List UInt8)
  failed : Bool
  deriving DecidableEq

/-- A report of the decoder, behind some data. -/
def Objects.push (o : Objects) (decoded : List (List UInt8)) : PemEvent → Objects
  | .none => { o with data := o.data ++ decoded.flatten }
  | .beginObj name => { o with inObj := true, isCert := isPemCertificate name, data := [] }
  | .endObj =>
    { o with
      inObj := false
      data := o.data ++ decoded.flatten
      certificates :=
        if o.inObj && o.isCert then o.certificates ++ [o.data ++ decoded.flatten]
        else o.certificates }
  | .error => { o with data := o.data ++ decoded.flatten, failed := true }

/-- What has been read and reported: the bytes of the CA file and those that the PEM decoder was fed,
its objects, the certificates that were decoded, and the bytes of the entropy source. -/
structure Account where
  caFile : List UInt8
  pemFed : List UInt8
  objects : Objects
  decoded : List (List UInt8 × Certificate)
  entropy : List UInt8
  deriving DecidableEq

/-- Nothing has been read. -/
def Account.start : Account := ⟨[], [], ⟨false, false, [], [], false⟩, [], []⟩

/-- An event that reads or reports. -/
def Account.add (a : Account) : Event → Account
  | .setup (.readCa _ (.bytes got)) => { a with caFile := a.caFile ++ got }
  | .setup (.pemPush input consumed decoded event) =>
    { a with pemFed := a.pemFed ++ input.take consumed, objects := a.objects.push decoded event }
  | .setup (.decode der answer) => { a with decoded := a.decoded ++ [(der, answer)] }
  | .setup (.readEntropy _ (.bytes got)) => { a with entropy := a.entropy ++ got }
  | _ => a

/-- What has been read in a list of events. -/
def account (events : List Event) : Account := events.foldl Account.add .start

theorem account_snoc (events : List Event) (e : Event) :
    account (events ++ [e]) = (account events).add e := by
  unfold account
  rw [List.foldl_append]
  rfl

/-- **The anchors are those of the CA file**: it was read to its end, within its bound, and was fed to
the PEM decoder whole, with a newline behind it; the decoder had no error and ended outside of an
object; every certificate that it reported was decoded, none failed, and the anchors are what came
out, between one and eight. -/
structure Loaded (events : List Event) (anchors : List Anchor) : Prop where
  ended : ∃ room, .setup (.readCa room (.bytes [])) ∈ events
  bounded : (account events).caFile.length ≤ caMaxBytes
  fed : (account events).pemFed = (account events).caFile ++ [0x0a]
  failed : (account events).objects.failed = false
  inObj : (account events).objects.inObj = false
  ders : (account events).decoded.map Prod.fst = (account events).objects.certificates
  decodes : ((account events).decoded.map fun d => decodeAnchor d.1 d.2) = anchors.map some
  ne_nil : anchors ≠ []
  length_le : anchors.length ≤ maxAnchors

/-- The settings of the configuration with the anchors, the wall clock and the seed. -/
def Config.settings (config : Config) (anchors : List Anchor) (wall : ℕ) (entropy : List UInt8) :
    Settings :=
  { Settings.ofWall anchors wall with entropy := entropy, serverName := config.serverName }

/-- **The handshake was set up with the configuration**: the name of the server is a valid one, the
socket does not block, and when the engine was reset it had been told the anchors of the CA file, the
wall clock, a full seed and that name. -/
def Trusted (config : Config) (events : List Event) : Prop :=
  validServerName config.serverName = true ∧ .setup (.setFlags true) ∈ events ∧
    ∃ (earlier later : List Event) (anchors : List Anchor) (wall : ℕ),
      events = earlier ++
        .setup (.reset (config.settings anchors wall (account earlier).entropy) true) :: later ∧
      Loaded earlier anchors ∧ .setup (.wall wall) ∈ earlier ∧
      (account earlier).entropy.length = entropyMinBytes

/-- **The handshake is through**: behind a trusted setup the engine was seen open, with no records to
send, and ready for data. -/
def Shaken (config : Config) (events : List Event) : Prop :=
  ∃ earlier flags later, events = earlier ++ .io (.currentState flags) :: later ∧
    Trusted config earlier ∧ flags.closed = false ∧ flags.sendRec = false ∧
    (flags.sendApp || flags.recvApp) = true

/-! ## Loading the anchors -/

/-- The receiver of the program holds what the decoder has reported of a certificate. -/
structure Tracks (o : Objects) (p : Pem) : Prop where
  failed : o.failed = false
  inObj : o.inObj = p.inobj
  isCert : o.isCert = p.isCert
  dest : p.isCert = true → p.dest = true
  data : p.isCert = true → p.der.overflow = false → p.der.bytes = o.data

/-- The newline that is still to come. -/
def Pem.newline (p : Pem) : List UInt8 := if p.extraNl then [0x0a] else []

/-- What holds of the PEM loop whatever was reported. -/
structure Pushing (events : List Event) (p : Pem) : Prop where
  nonblocking : .setup (.setFlags true) ∈ events
  ended : ∃ room, .setup (.readCa room (.bytes [])) ∈ events
  bounded : (account events).caFile.length ≤ caMaxBytes
  fed : (account events).pemFed ++ (p.buf ++ p.newline) = (account events).caFile ++ [0x0a]
  entropy : (account events).entropy = []
  decodes : ((account events).decoded.map fun d => decodeAnchor d.1 d.2) = p.anchors.map some

/-- What holds at the head of the PEM loop. -/
structure Looping (events : List Event) (p : Pem) : Prop extends Pushing events p where
  tracks : Tracks (account events).objects p
  ders : (account events).decoded.map Prod.fst = (account events).objects.certificates
  length_le : p.anchors.length ≤ maxAnchors

/-- What holds in front of `decode_anchor`. -/
structure Decoding (events : List Event) (p : Pem) : Prop extends Pushing events p where
  tracks : Tracks (account events).objects { p with inobj := false }
  ders : (account events).decoded.map Prod.fst ++ [p.der.bytes] =
    (account events).objects.certificates
  length_lt : p.anchors.length < maxAnchors

/-- What holds before the seed is complete. -/
def Seeding (events : List Event) (settings : Settings) : Prop :=
  .setup (.setFlags true) ∈ events ∧ ∃ (anchors : List Anchor) (wall : ℕ),
    settings = { Settings.ofWall anchors wall with entropy := (account events).entropy } ∧
    Loaded events anchors ∧ .setup (.wall wall) ∈ events ∧
    (account events).entropy.length < entropyMinBytes

/-- What holds before the engine is reset. -/
def Seeded (config : Config) (events : List Event) (settings : Settings) : Prop :=
  .setup (.setFlags true) ∈ events ∧ ∃ (anchors : List Anchor) (wall : ℕ),
    settings = config.settings anchors wall (account events).entropy ∧ Loaded events anchors ∧
    .setup (.wall wall) ∈ events ∧ (account events).entropy.length = entropyMinBytes

/-- What holds at a point of `cn_tls_open` before its handshake. -/
def SetupInv (config : Config) (events : List Event) : SetupPoint → Prop
  | .getFlags => account events = .start
  | .setFlags => account events = .start
  | .openCa _ => account events = .start ∧ .setup (.setFlags true) ∈ events
  | .readCa got => account events = { Account.start with caFile := got } ∧
    .setup (.setFlags true) ∈ events ∧ got.length < caMaxBytes
  | .readExtra got => account events = { Account.start with caFile := got } ∧
    .setup (.setFlags true) ∈ events ∧ got.length = caMaxBytes
  | .pem p => Looping events p ∧ p.finished = false
  | .decode p => Decoding events p
  | .wall anchors => .setup (.setFlags true) ∈ events ∧ Loaded events anchors ∧
    (account events).entropy = []
  | .openReady settings => Seeding events settings
  | .readyClock settings => Seeding events settings
  | .readyPoll settings _ => Seeding events settings
  | .openEntropy settings _ => Seeding events settings
  | .readEntropy settings => Seeding events settings
  | .entropyClock settings => Seeding events settings
  | .entropyPoll settings _ => Seeding events settings
  | .reset settings => Seeded config events settings
  | .classify => True

/-- What holds behind a call of `cn_tls_open` before its handshake. -/
def SetupOutcomeInv (config : Config) (events : List Event) : SetupOutcome → Prop
  | .goOn point => SetupInv config events point
  | .fails result => result ≠ .ok
  | .shakes => ∃ earlier settings, events = earlier ++ [.setup (.reset settings true)] ∧
    Seeded config earlier settings

section Setup

variable {config : Config} {events : List Event} {p : Pem} {settings : Settings} {e : Event}

theorem Loaded.snoc {anchors : List Anchor} (h : Loaded events anchors) (entropy : List UInt8)
    (he : (account events).add e = { account events with entropy := entropy }) :
    Loaded (events ++ [e]) anchors := by
  obtain ⟨room, hended⟩ := h.ended
  refine ⟨⟨room, List.mem_append_left _ hended⟩, ?_, ?_, ?_, ?_, ?_, ?_, h.ne_nil, h.length_le⟩ <;>
    rw [account_snoc, he]
  · exact h.bounded
  · exact h.fed
  · exact h.failed
  · exact h.inObj
  · exact h.ders
  · exact h.decodes

/-- The seed is not touched. -/
theorem Seeding.snoc (h : Seeding events settings) (he : (account events).add e = account events) :
    Seeding (events ++ [e]) settings := by
  obtain ⟨hflags, anchors, wall, hsettings, hloaded, hwall, hlength⟩ := h
  refine ⟨List.mem_append_left _ hflags, anchors, wall, ?_, hloaded.snoc _ he,
    List.mem_append_left _ hwall, ?_⟩
  · rw [account_snoc, he]
    exact hsettings
  · rw [account_snoc, he]
    exact hlength

/-! ### The PEM loop -/

theorem blobAppendAll_bytes (cap : ℕ) (b : Blob) (chunks : List (List UInt8))
    (h : (blobAppendAll cap b chunks).overflow = false) :
    b.overflow = false ∧ (blobAppendAll cap b chunks).bytes = b.bytes ++ chunks.flatten := by
  induction chunks generalizing b with
  | nil => exact ⟨h, (List.append_nil b.bytes).symm⟩
  | cons chunk chunks ih =>
    obtain ⟨hover, hbytes⟩ := ih (blobAppend cap b chunk) h
    have hchunk : b.overflow = false ∧ (blobAppend cap b chunk).bytes = b.bytes ++ chunk := by
      unfold blobAppend at hover ⊢
      split_ifs at hover with hcap
      rw [if_neg hcap]
      exact ⟨hover, rfl⟩
    refine ⟨hchunk.1, hbytes.trans ?_⟩
    rw [hchunk.2, List.flatten_cons, List.append_assoc]

/-- The end of the loop, or another turn. -/
theorem Looping.after (h : Looping events p) : SetupOutcomeInv config events (afterPem p) := by
  unfold afterPem
  cases hfinished : p.finished with
  | false => exact ⟨h, hfinished⟩
  | true =>
    rw [if_pos rfl]
    split_ifs with hbad
    · exact fun hok => by cases hok
    · obtain ⟨hinobj, hnil⟩ := not_or.mp hbad
      obtain ⟨hbuf, hnl⟩ : p.buf = [] ∧ p.extraNl = false := by
        simpa [Pem.finished] using hfinished
      have hfed := h.fed
      rw [hbuf, Pem.newline, hnl, if_neg (by simp), List.append_nil, List.append_nil] at hfed
      exact ⟨h.nonblocking, ⟨h.ended, h.bounded, hfed, h.tracks.failed,
        h.tracks.inObj.trans (Bool.eq_false_iff.mpr hinobj), h.ders, h.decodes, hnil, h.length_le⟩,
        h.entropy⟩

/-- The start of the loop. -/
theorem looping_start {file : List UInt8} (hflags : .setup (.setFlags true) ∈ events)
    (hended : ∃ room, .setup (.readCa room (.bytes [])) ∈ events)
    (haccount : account events = { Account.start with caFile := file })
    (hfile : file.length ≤ caMaxBytes) : Looping events (.start file) := by
  refine ⟨⟨hflags, hended, ?_, ?_, ?_, ?_⟩, ⟨?_, ?_, ?_, ?_, ?_⟩, ?_, ?_⟩
  · rw [haccount]
    exact hfile
  all_goals first | rw [haccount]; rfl | simp [Pem.start]

/-- What a push changes. -/
theorem account_push (consumed : ℕ) (decoded : List (List UInt8)) (event : PemEvent)
    (input : List UInt8) :
    account (events ++ [.setup (.pemPush input consumed decoded event)]) =
      { account events with
        pemFed := (account events).pemFed ++ input.take consumed
        objects := (account events).objects.push decoded event } := account_snoc events _

/-- What a push feeds the decoder. -/
theorem Pushing.push (h : Pushing events p) (hmore : p.finished = false) (consumed : ℕ)
    (decoded : List (List UInt8)) (event : PemEvent) :
    Pushing (events ++ [.setup (.pemPush p.input consumed decoded event)])
      (p.pushed consumed decoded) := by
  obtain ⟨room, hended⟩ := h.ended
  refine ⟨List.mem_append_left _ h.nonblocking, ⟨room, List.mem_append_left _ hended⟩, ?_, ?_, ?_,
    ?_⟩ <;> rw [account_push]
  · exact h.bounded
  · have hinput : p.input ++ (p.pushed consumed decoded).newline = p.buf ++ p.newline := by
      unfold Pem.input Pem.newline Pem.pushed
      dsimp only
      split_ifs with hnil <;> simp_all [Pem.finished]
    have hfed := h.fed
    rw [← hinput] at hfed
    rw [← hfed, List.append_assoc, ← List.append_assoc (p.input.take consumed)]
    congr 2
    exact List.take_append_drop consumed p.input
  · exact h.entropy
  · exact h.decodes

/-- Only what is left to push and the anchors matter. -/
theorem Pushing.congr {q : Pem} (h : Pushing events p) (hbuf : q.buf = p.buf)
    (hnl : q.extraNl = p.extraNl) (hanchors : q.anchors = p.anchors) : Pushing events q := by
  refine ⟨h.nonblocking, h.ended, h.bounded, ?_, h.entropy, ?_⟩
  · unfold Pem.newline
    rw [hbuf, hnl]
    exact h.fed
  · rw [hanchors]
    exact h.decodes

/-- What the receiver holds behind a push. -/
theorem Tracks.pushed_data {o : Objects} (h : Tracks o p) (consumed : ℕ)
    (decoded : List (List UInt8)) (hcert : p.isCert = true)
    (hover : (p.pushed consumed decoded).der.overflow = false) :
    (p.pushed consumed decoded).der.bytes = o.data ++ decoded.flatten := by
  unfold Pem.pushed at hover ⊢
  dsimp only at hover ⊢
  rw [if_pos (h.dest hcert)] at hover ⊢
  obtain ⟨hbefore, hbytes⟩ := blobAppendAll_bytes caMaxBytes p.der decoded hover
  rw [hbytes, h.data hcert hbefore]

/-- The end of a certificate, or of another object. -/
theorem Looping.endObj {decoded : List (List UInt8)} {consumed : ℕ} (h : Looping events p)
    (hmore : p.finished = false) :
    SetupOutcomeInv config (events ++ [.setup (.pemPush p.input consumed decoded .endObj)])
      (afterObject (p.pushed consumed decoded)) := by
  have hpush := h.toPushing.push hmore consumed decoded .endObj
  have htracks := h.tracks
  unfold afterObject
  cases hcert : (p.pushed consumed decoded).inobj && (p.pushed consumed decoded).isCert with
  | true =>
    obtain ⟨hin, his⟩ := Bool.and_eq_true_iff.mp hcert
    rw [if_pos rfl]
    split_ifs with hbad
    · exact fun hok => by cases hok
    · obtain ⟨hfew, hbad⟩ := not_or.mp hbad
      obtain ⟨hover, -⟩ := not_or.mp hbad
      have hdata := htracks.pushed_data consumed decoded his (Bool.eq_false_iff.mpr hover)
      refine ⟨hpush, ⟨?_, ?_, ?_, ?_, ?_⟩, ?_, not_le.mp hfew⟩
      · rw [account_push]
        exact htracks.failed
      · rw [account_push]
        rfl
      · rw [account_push]
        exact htracks.isCert
      · exact htracks.dest
      · intro _ _
        rw [account_push]
        exact hdata
      · have hobject : ((account events).objects.inObj && (account events).objects.isCert) = true := by
          rw [htracks.inObj, htracks.isCert]
          exact hcert
        rw [account_push, hdata]
        simp only [Objects.push, hobject, if_true]
        rw [← h.ders]
  | false =>
    have hobject : ((account events).objects.inObj && (account events).objects.isCert) = false := by
      rw [htracks.inObj, htracks.isCert]
      exact hcert
    rw [if_neg (by simp)]
    refine Looping.after ⟨hpush.congr rfl rfl rfl, ⟨?_, ?_, ?_, ?_, ?_⟩, ?_, h.length_le⟩
    · rw [account_push]
      exact htracks.failed
    · rw [account_push]
      rfl
    · rw [account_push]
      exact htracks.isCert
    · exact htracks.dest
    · intro his hover
      rw [account_push]
      exact htracks.pushed_data consumed decoded his hover
    · rw [account_push]
      simp only [Objects.push, hobject]
      exact h.ders

/-- **A push of the PEM loop.** -/
theorem Looping.push (h : Looping events p) (hmore : p.finished = false) (consumed : ℕ)
    (decoded : List (List UInt8)) (event : PemEvent) :
    SetupOutcomeInv config (events ++ [.setup (.pemPush p.input consumed decoded event)])
      (afterPush (p.pushed consumed decoded) event) := by
  have htracks := h.tracks
  cases event with
  | none =>
    refine Looping.after ⟨h.toPushing.push hmore consumed decoded .none, ⟨?_, ?_, ?_, ?_, ?_⟩, ?_,
      h.length_le⟩
    · rw [account_push]
      exact htracks.failed
    · rw [account_push]
      exact htracks.inObj
    · rw [account_push]
      exact htracks.isCert
    · exact htracks.dest
    · intro his hover
      rw [account_push]
      exact htracks.pushed_data consumed decoded his hover
    · rw [account_push]
      exact h.ders
  | beginObj name =>
    have hpush := h.toPushing.push hmore consumed decoded (.beginObj name)
    refine Looping.after ⟨hpush.congr rfl rfl rfl, ⟨?_, ?_, ?_, ?_, ?_⟩, ?_, h.length_le⟩
    · rw [account_push]
      exact htracks.failed
    · rw [account_push]
      rfl
    · rw [account_push]
      rfl
    · intro hname
      exact Bool.or_eq_true_iff.mpr (.inl hname)
    · intro _ _
      rw [account_push]
      rfl
    · rw [account_push]
      exact h.ders
  | endObj => exact h.endObj hmore
  | error => exact fun hok => by cases hok

/-- **A certificate that has been looked at.** -/
theorem Decoding.decode (h : Decoding events p) (answer : Certificate) :
    SetupOutcomeInv config (events ++ [.setup (.decode p.der.bytes answer)])
      (afterDecode p (decodeAnchor p.der.bytes answer)) := by
  have haccount : account (events ++ [.setup (.decode p.der.bytes answer)]) =
      { account events with
        decoded := (account events).decoded ++ [(p.der.bytes, answer)] } := account_snoc events _
  cases hanchor : decodeAnchor p.der.bytes answer with
  | none => exact fun hok => by cases hok
  | some anchor =>
    obtain ⟨room, hended⟩ := h.ended
    have htracks := h.tracks
    refine Looping.after ⟨⟨List.mem_append_left _ h.nonblocking,
      ⟨room, List.mem_append_left _ hended⟩, ?_, ?_, ?_, ?_⟩, ?_, ?_, ?_⟩
    · rw [haccount]
      exact h.bounded
    · rw [haccount]
      exact h.fed
    · rw [haccount]
      exact h.entropy
    · rw [haccount, List.map_append, h.decodes, List.map_append, List.map_singleton,
        List.map_singleton, hanchor]
    · rw [haccount]
      exact ⟨htracks.failed, htracks.inObj, htracks.isCert, htracks.dest, htracks.data⟩
    · rw [haccount, List.map_append, List.map_singleton]
      exact h.ders
    · rw [List.length_append, List.length_singleton]
      exact h.length_lt

/-! ### The other calls -/

/-- Behind a read of the CA file. -/
theorem setupInv_afterRead {got : List UInt8} {read : FileRead} {room : ℕ} {outcome : SetupOutcome}
    (h : SetupInv config events (.readCa got)) (hread : afterRead got read = some outcome) :
    SetupOutcomeInv config (events ++ [.setup (.readCa room read)]) outcome := by
  obtain ⟨haccount, hflags, hlt⟩ := h
  have hflags' : Event.setup (.setFlags true) ∈ events ++ [.setup (.readCa room read)] :=
    List.mem_append_left _ hflags
  have hsnoc := account_snoc events (.setup (.readCa room read))
  rw [haccount] at hsnoc
  cases read with
  | bytes new =>
    obtain ⟨hfits, hread⟩ := of_ite_none hread
    by_cases hnil : new = []
    · rw [if_pos hnil] at hread
      obtain rfl := Option.some.inj hread
      subst hnil
      refine (looping_start hflags' ⟨room, List.mem_append_right _ List.mem_cons_self⟩ ?_
        hlt.le).after
      rw [hsnoc]
      simp [Account.add, Account.start]
    · rw [if_neg hnil] at hread
      rw [not_lt, ← List.length_append] at hfits
      split_ifs at hread with hmore
      · obtain rfl := Option.some.inj hread
        exact ⟨hsnoc, hflags', hmore⟩
      · obtain rfl := Option.some.inj hread
        exact ⟨hsnoc, hflags', le_antisymm hfits (not_lt.mp hmore)⟩
  | interrupted =>
    obtain rfl := Option.some.inj hread
    exact ⟨hsnoc, hflags', hlt⟩
  | wouldBlock =>
    obtain rfl := Option.some.inj hread
    exact fun hok => by cases hok
  | failed =>
    obtain rfl := Option.some.inj hread
    exact fun hok => by cases hok

/-- Behind the read that follows a full buffer. -/
theorem setupInv_afterExtra {got : List UInt8} {read : FileRead} {room : ℕ}
    {outcome : SetupOutcome} (h : SetupInv config events (.readExtra got))
    (hread : afterExtra got read = some outcome) :
    SetupOutcomeInv config (events ++ [.setup (.readCa room read)]) outcome := by
  obtain ⟨haccount, hflags, hlength⟩ := h
  have hflags' : Event.setup (.setFlags true) ∈ events ++ [.setup (.readCa room read)] :=
    List.mem_append_left _ hflags
  have hsnoc := account_snoc events (.setup (.readCa room read))
  rw [haccount] at hsnoc
  cases read with
  | bytes new =>
    cases new with
    | nil =>
      obtain rfl := Option.some.inj hread
      refine (looping_start hflags' ⟨room, List.mem_append_right _ List.mem_cons_self⟩ ?_
        hlength.le).after
      rw [hsnoc]
      simp [Account.add, Account.start]
    | cons b new =>
      obtain rfl := Option.some.inj hread
      exact fun hok => by cases hok
  | interrupted =>
    obtain rfl := Option.some.inj hread
    exact ⟨hsnoc, hflags', hlength⟩
  | wouldBlock =>
    obtain rfl := Option.some.inj hread
    exact fun hok => by cases hok
  | failed =>
    obtain rfl := Option.some.inj hread
    exact fun hok => by cases hok

/-- Behind a read of the entropy source. -/
theorem Seeding.afterEntropy {read : FileRead} {room : ℕ} {outcome : SetupOutcome}
    (h : Seeding events settings) (hread : afterEntropy config settings read = some outcome) :
    SetupOutcomeInv config (events ++ [.setup (.readEntropy room read)]) outcome := by
  cases read with
  | bytes got =>
    obtain ⟨hflags, anchors, wall, hsettings, hloaded, hwall, hlength⟩ := h
    have haccount : account (events ++ [.setup (.readEntropy room (.bytes got))]) =
        { account events with entropy := (account events).entropy ++ got } := account_snoc events _
    have hentropy : settings.entropy = (account events).entropy := by rw [hsettings]
    have hloaded' : Loaded (events ++ [.setup (.readEntropy room (.bytes got))]) anchors :=
      hloaded.snoc ((account events).entropy ++ got) rfl
    obtain ⟨hfits, hread⟩ := of_ite_none hread
    dsimp only at hread
    split_ifs at hread with hnil hmore
    · obtain rfl := Option.some.inj hread
      exact fun hok => by cases hok
    · obtain rfl := Option.some.inj hread
      refine ⟨List.mem_append_left _ hflags, anchors, wall, ?_, hloaded',
        List.mem_append_left _ hwall, ?_⟩
      · rw [haccount, hsettings]
      · rw [haccount, ← hentropy]
        exact hmore
    · obtain rfl := Option.some.inj hread
      refine ⟨List.mem_append_left _ hflags, anchors, wall, ?_, hloaded',
        List.mem_append_left _ hwall, ?_⟩
      · rw [haccount, hsettings]
        rfl
      · rw [haccount, ← hentropy]
        rw [not_lt, ← List.length_append] at hfits
        exact le_antisymm hfits (not_lt.mp hmore)
  | interrupted =>
    obtain rfl := Option.some.inj hread
    exact h.snoc rfl
  | wouldBlock =>
    obtain rfl := Option.some.inj hread
    exact h.snoc rfl
  | failed =>
    obtain rfl := Option.some.inj hread
    exact fun hok => by cases hok

theorem setupInv_clock {now : ℤ} (h : Seeding events settings) {poll : ℤ → SetupPoint}
    (hpoll : ∀ events timeout, Seeding events settings → SetupInv config events (poll timeout)) :
    SetupOutcomeInv config (events ++ [.setup (.monotonic now)])
      (afterEntropyClock config now poll) := by
  unfold afterEntropyClock
  split_ifs
  · exact fun hok => by cases hok
  · exact hpoll _ _ (h.snoc rfl)

/-- The clock of the device is read: the engine can be seeded. -/
theorem setupInv_afterWall {anchors : List Anchor} {seconds : ℤ}
    (h : SetupInv config events (.wall anchors)) :
    SetupOutcomeInv config (events ++ [.setup (.wall seconds)]) (afterWall config anchors seconds) := by
  obtain ⟨hflags, hloaded, hentropy⟩ := h
  have haccount : account (events ++ [.setup (.wall seconds)]) = account events :=
    account_snoc events _
  unfold afterWall
  split_ifs with hneg
  · exact fun hok => by cases hok
  · have hwall : ((seconds.toNat : ℕ) : ℤ) = seconds := Int.toNat_of_nonneg (not_lt.mp hneg)
    have hseeding : Seeding (events ++ [.setup (.wall seconds)])
        (.ofWall anchors seconds.toNat) := by
      refine ⟨List.mem_append_left _ hflags, anchors, seconds.toNat, ?_, hloaded.snoc _ rfl, ?_, ?_⟩
      · rw [haccount, hentropy]
        rfl
      · rw [hwall]
        exact List.mem_append_right _ List.mem_cons_self
      · rw [haccount, hentropy]
        decide
    unfold beforeEntropy
    cases config.entropyPath <;> exact hseeding

/-- **A call of `cn_tls_open` before its handshake.** -/
theorem SetupInv.step {point : SetupPoint} {e : SetupEvent} {outcome : SetupOutcome}
    (h : SetupInv config events point) (hstep : nextSetup config point e = some outcome) :
    SetupOutcomeInv config (events ++ [.setup e]) outcome := by
  unfold nextSetup at hstep
  split at hstep
  case h_1 ok =>
    obtain rfl := Option.some.inj hstep
    split_ifs
    · exact (account_snoc events _).trans h
    · exact fun hok => by cases hok
  case h_2 ok =>
    obtain rfl := Option.some.inj hstep
    unfold afterSetFlags
    cases ok with
    | false => cases config.caPath <;> exact fun hok => by cases hok
    | true =>
      cases config.caPath with
      | none => exact fun hok => by cases hok
      | some path =>
        exact ⟨(account_snoc events _).trans h, List.mem_append_right _ List.mem_cons_self⟩
  case h_3 path path' opened =>
    obtain ⟨-, hsome⟩ := of_ite_none hstep
    obtain rfl := Option.some.inj hsome
    obtain ⟨haccount, hflags⟩ := h
    split_ifs
    · exact ⟨(account_snoc events _).trans haccount, List.mem_append_left _ hflags, by decide⟩
    · exact fun hok => by cases hok
  case h_4 got room read =>
    obtain ⟨-, hsome⟩ := of_ite_none hstep
    exact setupInv_afterRead h hsome
  case h_5 got room read =>
    obtain ⟨-, hsome⟩ := of_ite_none hstep
    exact setupInv_afterExtra h hsome
  case h_6 p input consumed decoded event =>
    obtain ⟨hcall, hsome⟩ := of_ite_none hstep
    obtain rfl := not_not.mp (not_or.mp hcall).1
    obtain rfl := Option.some.inj hsome
    exact h.1.push h.2 consumed decoded event
  case h_7 p der answer =>
    obtain ⟨hder, hsome⟩ := of_ite_none hstep
    obtain rfl := not_not.mp hder
    obtain rfl := Option.some.inj hsome
    exact Decoding.decode h answer
  case h_8 anchors seconds =>
    obtain rfl := Option.some.inj hstep
    exact setupInv_afterWall h
  case h_9 settings opened =>
    obtain rfl := Option.some.inj hstep
    split_ifs
    · exact Seeding.snoc h rfl
    · exact fun hok => by cases hok
  case h_10 settings now =>
    obtain rfl := Option.some.inj hstep
    exact setupInv_clock h fun _ _ hseeding => hseeding
  case h_11 settings timeout timeout' polled =>
    obtain ⟨-, hsome⟩ := of_ite_none hstep
    obtain rfl := Option.some.inj hsome
    unfold afterReadyPoll
    split
    · exact Seeding.snoc h rfl
    · exact Seeding.snoc h rfl
    · exact fun hok => by cases hok
  case h_12 settings path path' opened =>
    obtain ⟨-, hsome⟩ := of_ite_none hstep
    obtain rfl := Option.some.inj hsome
    split_ifs
    · exact Seeding.snoc h rfl
    · exact fun hok => by cases hok
  case h_13 settings room read =>
    obtain ⟨-, hsome⟩ := of_ite_none hstep
    exact Seeding.afterEntropy h hsome
  case h_14 settings now =>
    obtain rfl := Option.some.inj hstep
    exact setupInv_clock h fun _ _ hseeding => hseeding
  case h_15 settings timeout timeout' polled =>
    obtain ⟨-, hsome⟩ := of_ite_none hstep
    obtain rfl := Option.some.inj hsome
    unfold afterEntropyPoll
    split
    · exact Seeding.snoc h rfl
    · exact fun hok => by cases hok
  case h_16 settings settings' ok =>
    obtain ⟨hsettings, hsome⟩ := of_ite_none hstep
    obtain rfl := not_not.mp hsettings
    obtain rfl := Option.some.inj hsome
    cases ok with
    | true => exact ⟨events, settings', rfl, h⟩
    | false => trivial
  case h_17 error =>
    obtain rfl := Option.some.inj hstep
    exact classifyEngine_ne_ok 0 error
  case h_18 => cases hstep

end Setup

/-! ## The connection -/

/-- What holds at a point of the connection. Behind a successful `cn_tls_open` the phase is 1, and the
socket stays open until it is closed. -/
def PointInv (config : Config) (events : List Event) (s : State) : Prop :=
  match s.point with
  | .refusing => events = []
  | .refused => True
  | .gone => True
  | .setup point => validServerName config.serverName = true ∧ SetupInv config events point ∧
    s.phase = 0 ∧ s.isOpen = true
  | .pump job pump => Trusted config events ∧ pump.Fits job.task ∧ s.isOpen = true ∧
    (job.task = .handshake ∧ s.phase = 0 ∨
      job.task ≠ .handshake ∧ s.phase = 1 ∧ Shaken config events)
  | .shut result => s.isOpen = true ∧
    (s.phase = 0 ∧ result ≠ .ok ∨ s.phase = 1 ∧ Shaken config events)
  | .returning _ _ => s.isOpen = true → s.phase = 1 ∧ Shaken config events
  | .idle => s.isOpen = true → s.phase = 1 ∧ Shaken config events

section Connection

variable {config : Config} {events more : List Event} {s t : State} {e : Event}

theorem Trusted.append (h : Trusted config events) (more : List Event) :
    Trusted config (events ++ more) := by
  obtain ⟨hname, hflags, earlier, later, anchors, wall, rfl, hloaded, hwall, hlength⟩ := h
  exact ⟨hname, List.mem_append_left _ hflags, earlier, later ++ more, anchors, wall,
    by rw [List.append_assoc, List.cons_append], hloaded, hwall, hlength⟩

theorem Shaken.append (h : Shaken config events) (more : List Event) :
    Shaken config (events ++ more) := by
  obtain ⟨earlier, flags, later, rfl, htrusted, hflags⟩ := h
  exact ⟨earlier, flags, later ++ more, by rw [List.append_assoc, List.cons_append], htrusted,
    hflags⟩

theorem Shaken.trusted (h : Shaken config events) : Trusted config events := by
  obtain ⟨earlier, flags, later, rfl, htrusted, -⟩ := h
  exact htrusted.append _

/-- The handshake is set up. -/
theorem trusted_of_seeded {earlier : List Event} {settings : Settings}
    (hname : validServerName config.serverName = true) (h : Seeded config earlier settings) :
    Trusted config (earlier ++ [.setup (.reset settings true)]) := by
  obtain ⟨hflags, anchors, wall, rfl, hloaded, hwall, hlength⟩ := h
  exact ⟨hname, List.mem_append_left _ hflags, earlier, [], anchors, wall, rfl, hloaded, hwall,
    hlength⟩

/-- **How a handshake succeeds**: the engine is seen open, with nothing to send, and ready. -/
theorem PumpStep.handshake_ok {phase : ℕ} {job : Job} {pump : Pump} {e : IoEvent}
    {outcome : Outcome} {got : List UInt8} (h : PumpStep phase job pump e outcome)
    (houtcome : outcome = .ends .ok got) (htask : job.task = .handshake)
    (hfits : pump.Fits job.task) :
    ∃ flags, e = .currentState flags ∧ flags.closed = false ∧ flags.sendRec = false ∧
      (flags.sendApp || flags.recvApp) = true := by
  cases h with
  | head flags =>
    refine ⟨flags, rfl, ?_⟩
    unfold dispatch at houtcome
    rw [htask] at houtcome
    dsimp only at houtcome
    split_ifs at houtcome with hclosed hrec happ
    · exact ⟨Bool.eq_false_iff.mpr hclosed, Bool.eq_false_iff.mpr hrec, happ⟩
    · cases houtcome
  | classify error =>
    obtain ⟨hresult, -⟩ := Outcome.ends.inj houtcome
    exact absurd hresult (classifyEngine_ne_ok phase error)
  | sendApp room =>
    obtain ⟨left, hsend⟩ := hfits
    rw [htask] at hsend
    cases hsend
  | recvApp available =>
    obtain ⟨cap, hrecv⟩ := hfits
    rw [htask] at hrecv
    cases hrecv
  | recvAppAck got =>
    obtain ⟨cap, hrecv⟩ := hfits
    rw [htask] at hrecv
    cases hrecv
  | flush records =>
    unfold flushed at houtcome
    rw [htask] at houtcome
    split_ifs at houtcome with hnil hshutdown
    cases hshutdown
  | flushClock records now =>
    split_ifs at houtcome
    exact absurd (Outcome.ends.inj houtcome).1 (ioTimeout_ne_ok phase .output)
  | ingestClock room now =>
    split_ifs at houtcome
    exact absurd (Outcome.ends.inj houtcome).1 (ioTimeout_ne_ok phase .input)
  | flushPoll records timeout polled =>
    cases polled with
    | timedOut => exact absurd (Outcome.ends.inj houtcome).1 (ioTimeout_ne_ok phase .output)
    | interrupted => cases houtcome
    | failed => cases houtcome
    | revents wanted hangup invalid =>
      unfold afterFlushPoll at houtcome
      dsimp only at houtcome
      split_ifs at houtcome
      cases houtcome
  | ingestPoll room timeout polled =>
    cases polled with
    | timedOut => exact absurd (Outcome.ends.inj houtcome).1 (ioTimeout_ne_ok phase .input)
    | interrupted => cases houtcome
    | failed => cases houtcome
    | revents wanted hangup invalid =>
      unfold afterIngestPoll at houtcome
      dsimp only at houtcome
      split_ifs at houtcome
      cases houtcome
  | flushSend records sent hsent =>
    subst houtcome
    cases sent with
    | took n =>
      obtain ⟨-, hsent⟩ := of_ite_none hsent
      split_ifs at hsent <;> cases Option.some.inj hsent
    | again => cases Option.some.inj hsent
    | failed => cases Option.some.inj hsent
  | ingestRecv room received hreceived =>
    subst houtcome
    cases received with
    | bytes got =>
      obtain ⟨-, hreceived⟩ := of_ite_none hreceived
      split_ifs at hreceived <;> cases Option.some.inj hreceived
    | again => cases Option.some.inj hreceived
    | failed => cases Option.some.inj hreceived
  | ingest room => split_ifs at houtcome
  | sendAppAck chunk => cases houtcome
  | flushAck records taken => cases houtcome
  | ingestAck records => cases houtcome
  | shutdown now => cases houtcome

/-- The end of a loop over the engine. -/
theorem pointInv_ends {job : Job} {pump : Pump} {e : IoEvent} {result : TlsResult}
    {got : List UInt8} (htrusted : Trusted config events) (hfits : pump.Fits job.task)
    (hopen : s.isOpen = true)
    (hphase : job.task = .handshake ∧ s.phase = 0 ∨
      job.task ≠ .handshake ∧ s.phase = 1 ∧ Shaken config events)
    (hstep : PumpStep s.phase job pump e (.ends result got)) :
    PointInv config (events ++ [.io e]) (s.ends job.task result got) := by
  rcases hphase with ⟨htask, hphase⟩ | ⟨htask, hphase, hshaken⟩
  · rw [htask]
    unfold State.ends
    dsimp only
    split_ifs with hok
    · subst hok
      obtain ⟨flags, rfl, hflags⟩ := hstep.handshake_ok rfl htask hfits
      exact fun _ => ⟨rfl, events, flags, [], rfl, htrusted, hflags⟩
    · exact ⟨hopen, .inl ⟨hphase, hok⟩⟩
  · unfold State.ends
    split
    · exact absurd ‹_› htask
    · exact ⟨hopen, .inr ⟨hphase, hshaken.append _⟩⟩
    · exact fun _ => ⟨hphase, hshaken.append _⟩

/-- A call of the application. -/
theorem pointInv_called (h : s.isOpen = true → s.phase = 1 ∧ Shaken config events) (c : Call) :
    PointInv config (events ++ [.call c]) (s.called c) := by
  unfold State.called
  cases c with
  | sendAll data deadline =>
    dsimp only
    split_ifs with hopen
    · obtain ⟨hphase, hshaken⟩ := h hopen
      refine ⟨hshaken.trusted.append _, trivial, hopen, .inr ⟨?_, hphase, hshaken.append _⟩⟩
      dsimp only
      unfold Task.sending
      split_ifs <;> simp
    · exact fun hopen' => absurd hopen' hopen
  | recvSome cap deadline =>
    dsimp only
    split_ifs with hclosed
    · intro hopen
      obtain ⟨hphase, hshaken⟩ := h hopen
      exact ⟨hphase, hshaken.append _⟩
    · have hopen : s.isOpen = true := by simpa using (not_or.mp hclosed).1
      obtain ⟨hphase, hshaken⟩ := h hopen
      exact ⟨hshaken.trusted.append _, trivial, hopen,
        .inr ⟨by simp, hphase, hshaken.append _⟩⟩
  | close =>
    dsimp only
    split_ifs with hclosed hphase
    · intro hopen
      obtain ⟨hphase, hshaken⟩ := h hopen
      exact ⟨hphase, hshaken.append _⟩
    · have hopen : s.isOpen = true := by simpa using hclosed
      obtain ⟨-, hshaken⟩ := h hopen
      exact ⟨hshaken.trusted.append _, rfl, hopen, .inr ⟨by simp, hphase, hshaken.append _⟩⟩
    · have hopen : s.isOpen = true := by simpa using hclosed
      exact absurd (h hopen).1 hphase

/-- **A call of the connection.** -/
theorem PointInv.step (h : PointInv config events s) (hstep : Step config s e t) :
    PointInv config (events ++ [e]) t := by
  unfold PointInv at h
  cases hstep with
  | refuse hpoint => trivial
  | @setup point e outcome hpoint hnext =>
    rw [hpoint] at h
    obtain ⟨hname, hinv, hphase, hopen⟩ := h
    have houtcome := hinv.step hnext
    cases outcome with
    | goOn point' => exact ⟨hname, houtcome, hphase, hopen⟩
    | fails result => exact ⟨hopen, .inl ⟨hphase, houtcome⟩⟩
    | shakes =>
      obtain ⟨earlier, settings, hevents, hseeded⟩ := houtcome
      refine ⟨?_, trivial, hopen, .inl ⟨rfl, hphase⟩⟩
      rw [hevents]
      exact trusted_of_seeded hname hseeded
  | @io job pump e outcome hpoint hpump =>
    rw [hpoint] at h
    obtain ⟨htrusted, hfits, hopen, hphase⟩ := h
    cases outcome with
    | goOn job' pump' =>
      obtain ⟨hfits', hiff⟩ := hpump.fits hfits
      refine ⟨htrusted.append _, hfits', hopen, ?_⟩
      rcases hphase with ⟨htask, hphase⟩ | ⟨htask, hphase, hshaken⟩
      · exact .inl ⟨hiff.mpr htask, hphase⟩
      · exact .inr ⟨mt hiff.mp htask, hphase, hshaken.append _⟩
    | ends result got => exact pointInv_ends htrusted hfits hopen hphase hpump
  | shut hpoint => exact fun hopen => by cases hopen
  | returns hpoint =>
    rw [hpoint] at h
    intro hopen
    obtain ⟨hphase, hshaken⟩ := h hopen
    exact ⟨hphase, hshaken.append _⟩
  | refused hpoint => trivial
  | call hpoint c =>
    rw [hpoint] at h
    exact pointInv_called h c

/-- **Every run keeps the invariant.** -/
theorem pointInv_run (h : run (next config) (.start config) events = some s) :
    PointInv config events s := by
  refine EventMachine.run_induct (I := PointInv config) ?_ ?_ h
  · unfold State.start
    split_ifs with hname
    · exact ⟨hname, rfl, rfl, rfl⟩
    · rfl
  · intro events s t e hinv hnext
    exact hinv.step (step_of_next hnext)

/-! ## The socket -/

/-- The descriptor is there until the socket is closed. -/
theorem isOpen_iff_run (h : run (next config) (.start config) events = some s) :
    s.isOpen = true ↔ .closeSocket ∉ events := by
  refine EventMachine.run_induct (I := fun events s => s.isOpen = true ↔ .closeSocket ∉ events)
    ?_ ?_ h
  · unfold State.start
    split_ifs <;> simp
  · intro events s t e hinv hnext
    have hstep := step_of_next hnext
    have hstay : t.isOpen = s.isOpen → e ≠ .closeSocket →
        (t.isOpen = true ↔ .closeSocket ∉ events ++ [e]) := by
      intro hopen he
      rw [hopen, hinv, List.mem_append, List.mem_singleton, not_or]
      exact ⟨fun hnot => ⟨hnot, fun heq => he heq.symm⟩, fun hnot => hnot.1⟩
    cases hstep with
    | refuse hpoint => simp
    | shut hpoint => simp
    | @setup point e outcome hpoint hsetup =>
      refine hstay ?_ (by simp)
      cases outcome <;> rfl
    | @io job pump e outcome hpoint hpump =>
      refine hstay ?_ (by simp)
      cases outcome with
      | goOn job' pump' => rfl
      | ends result got =>
        unfold State.afterPump State.ends
        dsimp only
        split
        · split_ifs <;> rfl
        · rfl
        · rfl
    | returns hpoint => exact hstay rfl (by simp)
    | refused hpoint => exact hstay rfl (by simp)
    | call hpoint c =>
      refine hstay ?_ (by simp)
      unfold State.called
      cases c <;> dsimp only <;> split_ifs <;> rfl

/-- What holds while `cn_tls_open` has not returned. -/
def Opening (events : List Event) (s : State) : Prop :=
  match s.point with
  | .pump job _ => job.task = .handshake
  | .shut result => result ≠ .ok
  | .returning result _ => result = .ok ∧ s.isOpen = true ∨
    result ≠ .ok ∧ ∃ earlier, events = earlier ++ [.closeSocket]
  | .refused => ∃ earlier, events = earlier ++ [.closeSocket]
  | .idle => False
  | .gone => False
  | _ => True

theorem Opening.step (h : Opening events s) (hinv : PointInv config events s)
    (hstep : Step config s e t) (he : ∀ result got, e ≠ .returns result got) :
    Opening (events ++ [e]) t := by
  unfold Opening at h
  unfold PointInv at hinv
  cases hstep with
  | refuse hpoint => exact ⟨events, rfl⟩
  | @setup point e outcome hpoint hsetup =>
    rw [hpoint] at hinv
    cases outcome with
    | goOn point' => trivial
    | fails result => exact hinv.2.1.step hsetup
    | shakes => rfl
  | @io job pump e outcome hpoint hpump =>
    rw [hpoint] at h hinv
    cases outcome with
    | goOn job' pump' => exact (hpump.fits hinv.2.1).2.mpr h
    | ends result got =>
      dsimp only at h
      obtain ⟨-, -, hopen, -⟩ := hinv
      unfold State.afterPump State.ends
      rw [h]
      dsimp only
      split_ifs with hok
      · exact .inl ⟨rfl, hopen⟩
      · exact hok
  | @shut result hpoint =>
    rw [hpoint] at h
    exact .inr ⟨h, events, rfl⟩
  | @returns result got hpoint => exact absurd rfl (he result got)
  | refused hpoint => exact absurd rfl (he .invalid [])
  | call hpoint c =>
    rw [hpoint] at h
    exact h.elim

theorem opening_run (h : run (next config) (.start config) events = some s)
    (hevents : ∀ e ∈ events, ∀ result got, e ≠ .returns result got) : Opening events s := by
  have hrun := EventMachine.run_induct
    (I := fun events s => PointInv config events s ∧
      ((∀ e ∈ events, ∀ result got, e ≠ .returns result got) → Opening events s)) ?_ ?_ h
  · exact hrun.2 hevents
  · refine ⟨pointInv_run (EventMachine.run_nil _ _), fun _ => ?_⟩
    unfold State.start
    split_ifs <;> trivial
  · intro events s t e hbefore hnext
    obtain ⟨hinv, hopening⟩ := hbefore
    have hstep := step_of_next hnext
    refine ⟨hinv.step hstep, fun hall => ?_⟩
    have hearlier := hopening fun e' he' => hall e' (List.mem_append_left _ he')
    exact hearlier.step hinv hstep (hall e (List.mem_append_right _ List.mem_cons_self))

/-- A call that hands data to the engine or takes data from it. -/
def IoEvent.MovesData : IoEvent → Prop
  | .sendappBuf _ => True
  | .sendappAck _ => True
  | .recvappBuf _ => True
  | .recvappAck _ => True
  | _ => False

/-- A place where data are moved belongs to no handshake. -/
theorem PumpStep.not_handshake {phase : ℕ} {job : Job} {pump : Pump} {e : IoEvent}
    {outcome : Outcome} (h : PumpStep phase job pump e outcome) (hfits : pump.Fits job.task)
    (he : e.MovesData) : job.task ≠ .handshake := by
  intro htask
  rw [htask] at hfits
  cases h with
  | sendApp room =>
    obtain ⟨left, hsend⟩ := hfits
    cases hsend
  | sendAppAck chunk =>
    obtain ⟨left, hsend, -⟩ := hfits
    cases hsend
  | recvApp available =>
    obtain ⟨cap, hrecv⟩ := hfits
    cases hrecv
  | recvAppAck got =>
    obtain ⟨cap, hrecv⟩ := hfits
    cases hrecv
  | _ => exact he.elim

/-- **Nothing is exchanged without trust.** In every run, when the engine is first looked at, and so
before any record is exchanged, the handshake has been set up with the configuration: a valid name,
the anchors of the whole CA file, the wall clock and a full seed. Before any data is handed to the
engine or taken from it, and when `cn_tls_open` returns success, the handshake is through as well. -/
theorem data_only_when_trusted (h : run (next config) (.start config) events = some s) :
    (∀ before e after, events = before ++ .io e :: after → Trusted config before) ∧
    (∀ before e after, events = before ++ .io e :: after → e.MovesData → Shaken config before) ∧
    ∀ before got after, events = before ++ .returns .ok got :: after →
      (∀ e ∈ before, ∀ result got, e ≠ .returns result got) → Shaken config before := by
  refine ⟨?_, ?_, ?_⟩
  · intro before e after hevents
    subst hevents
    obtain ⟨s₁, s₂, hbefore, hnext, -⟩ := EventMachine.run_split h
    have hinv := pointInv_run hbefore
    unfold PointInv at hinv
    cases step_of_next hnext with
    | io hpoint hpump =>
      rw [hpoint] at hinv
      exact hinv.1
  · intro before e after hevents he
    subst hevents
    obtain ⟨s₁, s₂, hbefore, hnext, -⟩ := EventMachine.run_split h
    have hinv := pointInv_run hbefore
    unfold PointInv at hinv
    cases step_of_next hnext with
    | io hpoint hpump =>
      rw [hpoint] at hinv
      obtain ⟨-, hfits, -, ⟨htask, -⟩ | ⟨-, -, hshaken⟩⟩ := hinv
      · exact absurd htask (hpump.not_handshake hfits he)
      · exact hshaken
  · intro before got after hevents hbefore'
    subst hevents
    obtain ⟨s₁, s₂, hbefore, hnext, -⟩ := EventMachine.run_split h
    have hinv := pointInv_run hbefore
    have hopening := opening_run hbefore hbefore'
    unfold PointInv at hinv
    unfold Opening at hopening
    cases step_of_next hnext with
    | returns hpoint =>
      rw [hpoint] at hinv hopening
      rcases hopening with ⟨-, hopen⟩ | ⟨hne, -⟩
      · exact (hinv hopen).2
      · exact absurd rfl hne

theorem data_only_when_trusted_sample :
    Shaken sampleConfig (sampleRun.take 29) ∧ sampleRun[29]? = some (.io (.sendappBuf 1)) :=
  ⟨(data_only_when_trusted run_sampleRun).2.1 (sampleRun.take 29) (.sendappBuf 1)
    (sampleRun.drop 30) (by decide +kernel) trivial, by decide +kernel⟩

/-- **The socket is closed once.** In every run `cn_tls_open` leaves the socket open exactly when it
returns success, and closes it as its last call otherwise; the socket is closed at most once, and
behind that nothing is set up, polled, sent or received. -/
theorem socket_closed_once (h : run (next config) (.start config) events = some s) :
    (∀ before result got after, events = before ++ .returns result got :: after →
      (∀ e ∈ before, ∀ result got, e ≠ .returns result got) →
      result = .ok ∧ .closeSocket ∉ before ∨
        result ≠ .ok ∧ ∃ earlier, before = earlier ++ [.closeSocket]) ∧
    ∀ before after, events = before ++ .closeSocket :: after →
      .closeSocket ∉ before ∧ ∀ e ∈ after, e ≠ .closeSocket ∧ (∀ io, e ≠ .io io) ∧
        ∀ setup, e ≠ .setup setup := by
  refine ⟨?_, ?_⟩
  · intro before result got after hevents hbefore'
    subst hevents
    obtain ⟨s₁, s₂, hbefore, hnext, -⟩ := EventMachine.run_split h
    have hopening := opening_run hbefore hbefore'
    unfold Opening at hopening
    cases step_of_next hnext with
    | returns hpoint =>
      rw [hpoint] at hopening
      rcases hopening with ⟨hok, hopen⟩ | hfail
      · exact .inl ⟨hok, (isOpen_iff_run hbefore).mp hopen⟩
      · exact .inr hfail
    | refused hpoint =>
      rw [hpoint] at hopening
      exact .inr ⟨by decide, hopening⟩
  · -- a call that needs the socket finds the descriptor
    have hneeds : ∀ before e after, events = before ++ e :: after →
        (e = .closeSocket ∨ (∃ io, e = .io io) ∨ ∃ setup, e = .setup setup) →
        .closeSocket ∉ before := by
      intro before e after hevents he
      subst hevents
      obtain ⟨s₁, s₂, hbefore, hnext, -⟩ := EventMachine.run_split h
      have hinv := pointInv_run hbefore
      have hopen := isOpen_iff_run hbefore
      unfold PointInv at hinv
      cases step_of_next hnext with
      | refuse hpoint =>
        rw [hpoint] at hinv
        rw [show before = [] from hinv]
        simp
      | setup hpoint hsetup =>
        rw [hpoint] at hinv
        exact hopen.mp hinv.2.2.2
      | io hpoint hpump =>
        rw [hpoint] at hinv
        exact hopen.mp hinv.2.2.1
      | shut hpoint =>
        rw [hpoint] at hinv
        exact hopen.mp hinv.1
      | returns hpoint => rcases he with he | ⟨io, he⟩ | ⟨setup, he⟩ <;> cases he
      | refused hpoint => rcases he with he | ⟨io, he⟩ | ⟨setup, he⟩ <;> cases he
      | call hpoint c => rcases he with he | ⟨io, he⟩ | ⟨setup, he⟩ <;> cases he
    intro before after hevents
    refine ⟨hneeds before _ after hevents (.inl rfl), ?_⟩
    intro e he
    obtain ⟨between, rest, rfl⟩ := List.append_of_mem he
    have hnot := hneeds (before ++ .closeSocket :: between) e rest (by simp [hevents])
    have hclosed : Event.closeSocket ∈ before ++ .closeSocket :: between := by simp
    refine ⟨?_, ?_, ?_⟩
    · intro heq
      exact hnot (.inl heq) hclosed
    · intro io heq
      exact hnot (.inr (.inl ⟨io, heq⟩)) hclosed
    · intro setup heq
      exact hnot (.inr (.inr ⟨setup, heq⟩)) hclosed

theorem socket_closed_once_sample :
    .closeSocket ∉ sampleRun.take 56 ∧ sampleRun[56]? = some .closeSocket :=
  ⟨((socket_closed_once run_sampleRun).2 (sampleRun.take 56) (sampleRun.drop 57)
    (by decide +kernel)).1, by decide +kernel⟩

end Connection

end TlsSimple
