import Cled.Desktop.Installation
import Cled.Lan.Meeting

/-!
# What an installation keeps

The app can be stopped between any two steps, and a file that is being written
stays as it is then.  All the same an installation keeps its keys and its device
ID, and its settings and paired devices as they were last saved.
-/

namespace Cled.Desktop

open Cled.Core Cled.Clipboard Cled.Sync Cled.Lan

/-! ## What is read back -/

section ReadBack

variable {format : UuidFormat} {urls : UrlFormat} {json : Json}

theorem length_privateBytes (keys : Keys) : (privateBytes keys).length = keyLen :=
  length_beBytes _ _

theorem length_keysFile (keys : Keys) : (keysFile keys).length = 2 * keyLen := by
  rw [keysFile, List.length_append, length_privateBytes, length_keyBytes]
  rfl

theorem readKeys_keysFile (keys : Keys) : readKeys (keysFile keys) = some keys := by
  have hprivate : keys.privateKey.toNat < 256 ^ keyLen := by
    rw [pow_keyLen]
    exact keys.privateKey.isLt
  have hpublic : keys.publicKey.toNat < 256 ^ keyLen := by
    rw [pow_keyLen]
    exact keys.publicKey.isLt
  rw [readKeys, if_pos (length_keysFile keys), keysFile,
    List.take_left' (length_privateBytes keys),
    List.drop_left' (length_privateBytes keys), privateBytes, keyBytes,
    fromBe_beBytes hprivate, fromBe_beBytes hpublic]
  simp

/-- A part of a file of keys is the whole file, or it is malformed. -/
theorem readKeys_front {front : Bytes} {keys found : Keys}
    (hfront : front <+: keysFile keys) (hread : readKeys front = some found) :
    found = keys := by
  have hlength : front.length = 2 * keyLen := by
    by_contra hshort
    rw [readKeys, if_neg hshort] at hread
    cases hread
  have hall : front = keysFile keys :=
    hfront.eq_of_length (hlength.trans (length_keysFile keys).symm)
  rw [hall, readKeys_keysFile] at hread
  exact (Option.some.inj hread).symm

theorem trim_newline {text : String}
    (hchars : ∀ char ∈ text.toList, isWhiteSpace char = false) :
    trim (text ++ "\n") = text := by
  have hlast : isWhiteSpace '\n' = true := by decide
  have hnewline : (text ++ "\n").toList = text.toList ++ ['\n'] := by simp
  have hfront : String.ofList (text.toList.dropWhile isWhiteSpace |>.rdropWhile
      isWhiteSpace) = text := trim_of_forall hchars
  cases htext : text.toList with
  | nil =>
      rw [htext] at hfront hnewline
      rw [trim, hnewline, List.nil_append, List.dropWhile_cons_of_pos hlast]
      exact hfront
  | cons first chars =>
      have hfirst : ¬ isWhiteSpace first = true := by
        simp [hchars first (htext ▸ List.mem_cons_self)]
      rw [htext, List.dropWhile_cons_of_neg hfirst] at hfront
      rw [trim, hnewline, htext, List.cons_append,
        List.dropWhile_cons_of_neg hfirst, ← List.cons_append,
        List.rdropWhile_concat_pos _ _ _ hlast]
      exact hfront

theorem readDeviceFile_deviceFile (hformat : format.Hyphenated)
    (device : DeviceId) :
    readDeviceFile format (deviceFile format device) = some device := by
  have htrim : trim (deviceText format device ++ "\n") = deviceText format device :=
    trim_newline fun char hmem =>
      (isIdentifierChar_of_hyphenated (hformat.chars _ char hmem)).2
  rw [readDeviceFile, deviceFile, fromUtf8_utf8, Option.bind_some, parseDevice, htrim,
    deviceText, hformat.parse]
  rfl

theorem trim_trim (text : String) : trim (trim text) = trim text := by
  have hfront : ((text.toList.dropWhile isWhiteSpace).rdropWhile
      isWhiteSpace).dropWhile isWhiteSpace =
        (text.toList.dropWhile isWhiteSpace).rdropWhile isWhiteSpace := by
    have hstart := List.head?_dropWhile_not isWhiteSpace text.toList
    obtain ⟨rest, hrest⟩ :=
      List.rdropWhile_prefix isWhiteSpace (text.toList.dropWhile isWhiteSpace)
    cases hkept :
        (text.toList.dropWhile isWhiteSpace).rdropWhile isWhiteSpace with
    | nil => rfl
    | cons first chars =>
        rw [hkept] at hrest
        rw [← hrest] at hstart
        exact List.dropWhile_cons_of_neg (by simpa using hstart)
  rw [trim, trim, String.toList_ofList, hfront, List.rdropWhile_idempotent]

theorem validateRelayUrl_of_ok {input url : String}
    (hvalid : validateRelayUrl urls input = .ok url) :
    validateRelayUrl urls url = .ok url := by
  unfold validateRelayUrl at hvalid ⊢
  dsimp only at hvalid ⊢
  split at hvalid
  · cases hvalid
  next hnonempty =>
  split at hvalid
  · next hurl =>
    obtain rfl := Except.ok.inj hvalid
    rw [trim_trim, if_neg hnonempty, if_pos hurl]
  · cases hvalid

end ReadBack

/-! ## What a step can do -/

namespace Installation

variable (format : UuidFormat) (urls : UrlFormat) (json : Json)

inductive Stepped (state : Installation) : Action → Installation → Prop
  | stopped : Stepped state .stop { state with app := .off }
  | known {readable : Bool} (fresh : DeviceId) {device : DeviceId}
      (hoff : state.app = .off)
      (hread : (state.disk .deviceId).bind (readDeviceFile format) = some device) :
      Stepped state (.launch readable fresh) { state with app := .named device }
  | nameless {readable : Bool} {fresh : DeviceId} (hoff : state.app = .off)
      (hnone : readable = true →
        (state.disk .deviceId).bind (readDeviceFile format) = none) :
      Stepped state (.launch readable fresh)
        { state with
          app := .naming fresh
            (FileTask.overwriting .deviceId [deviceFile format fresh]) }
  | wroteName {count : ℕ} {device : DeviceId} {writing rest : Writing}
      {disk : Stored} (happ : state.app = .naming device writing)
      (hadvance : FileTask.advance count state.disk writing = some (disk, rest)) :
      Stepped state (.write count)
        { state with disk, app := .naming device rest }
  | failedName {device : DeviceId} {writing : Writing}
      (happ : state.app = .naming device writing) :
      Stepped state .failWrite { state with app := .named device }
  | endedName {device : DeviceId} (happ : state.app = .naming device []) :
      Stepped state .endWrite { state with app := .named device }
  | keyless {readable : Bool} {generated : Except String Keys}
      {device : DeviceId} (happ : state.app = .named device) :
      Stepped state (.loadKeys readable generated)
        { state with app := .keyed device none }
  | readKeys {readable : Bool} {generated : Except String Keys}
      {device : DeviceId} {keys : Keys} (happ : state.app = .named device)
      (hread : (state.disk .identityKey).bind readKeys = some keys) :
      Stepped state (.loadKeys readable generated)
        { state with app := .keyed device (some keys) }
  | madeKeys {readable : Bool} {device : DeviceId} {keys : Keys}
      (happ : state.app = .named device)
      (hnone : (state.disk .identityKey).bind Desktop.readKeys = none) :
      Stepped state (.loadKeys readable (.ok keys))
        { state with
          app := .keying device keys (FileTask.overwriting .identityKey
            [privateBytes keys, keyBytes keys.publicKey]) }
  | wroteKeys {count : ℕ} {device : DeviceId} {keys : Keys}
      {writing rest : Writing} {disk : Stored}
      (happ : state.app = .keying device keys writing)
      (hadvance : FileTask.advance count state.disk writing = some (disk, rest)) :
      Stepped state (.write count)
        { state with disk, app := .keying device keys rest }
  | failedKeys {device : DeviceId} {keys : Keys} {writing : Writing}
      (happ : state.app = .keying device keys writing) :
      Stepped state .failWrite { state with app := .keyed device none }
  | endedKeys {device : DeviceId} {keys : Keys}
      (happ : state.app = .keying device keys []) :
      Stepped state .endWrite { state with app := .keyed device (some keys) }
  | started {starts readable : Bool} {device : DeviceId} {keys : Option Keys}
      (happ : state.app = .keyed device keys) :
      Stepped state (.start starts readable)
        { state with
          app := .running
            (started format urls json state.disk device keys starts readable) }
  | changedPeers {app : RunningApp} {keys : Keys} {before : PeerStore}
      (store : PeerStore) (happ : state.app = .running app)
      (hnode : app.node = some (keys, before)) (hidle : app.savingPeers = []) :
      Stepped state (.changePeers store)
        { state with
          app := .running { app with
            node := some (keys, store)
            savingPeers := FileTask.replacing .newPeers .peers
              (json.peers (store.file format))
            saved := false } }
  | wrotePeers {app : RunningApp} {count : ℕ} {rest : Writing} {disk : Stored}
      (happ : state.app = .running app)
      (hadvance : FileTask.advance count state.disk app.savingPeers =
        some (disk, rest)) (hrest : rest ≠ []) :
      Stepped state (.writePeers count)
        { state with disk, app := .running { app with savingPeers := rest } }
  | savedPeers {app : RunningApp} {count : ℕ} {keys : Keys} {store : PeerStore}
      {disk : Stored} (happ : state.app = .running app)
      (hnode : app.node = some (keys, store))
      (hadvance : FileTask.advance count state.disk app.savingPeers =
        some (disk, [])) :
      Stepped state (.writePeers count)
        { disk
          app := .running { app with savingPeers := [], saved := true }
          kept := store }
  | failedPeers {app : RunningApp} (happ : state.app = .running app) :
      Stepped state .failPeers
        { state with app := .running { app with savingPeers := [] } }
  | refused {app : RunningApp} (url : String) (happ : state.app = .running app) :
      Stepped state (.setRelayUrl url) state
  | setMode {app : RunningApp} (mode : ConnectionMode)
      (happ : state.app = .running app) (hidle : app.savingSettings = none) :
      Stepped state (.setConnectionMode mode)
        { state with
          app := .running (updateSettings json app
            { app.settings with connectionMode := mode }) }
  | setUrl {app : RunningApp} {input url : String}
      (happ : state.app = .running app) (hidle : app.savingSettings = none)
      (hvalid : validateRelayUrl urls input = .ok url) :
      Stepped state (.setRelayUrl input)
        { state with
          app := .running (updateSettings json app
            { app.settings with relayUrl := url }) }
  | wroteSettings {app : RunningApp} {count : ℕ} {next : Settings}
      {writing rest : Writing} {disk : Stored} (happ : state.app = .running app)
      (hsaving : app.savingSettings = some (next, writing))
      (hadvance : FileTask.advance count state.disk writing = some (disk, rest)) :
      Stepped state (.writeSettings count)
        { state with
          disk, app := .running { app with savingSettings := some (next, rest) } }
  | failedSettings {app : RunningApp} {next : Settings} {writing : Writing}
      (happ : state.app = .running app)
      (hsaving : app.savingSettings = some (next, writing)) (hleft : writing ≠ []) :
      Stepped state .failSettings
        { state with app := .running { app with savingSettings := none } }
  | endedSettings {app : RunningApp} {next : Settings}
      (happ : state.app = .running app)
      (hsaving : app.savingSettings = some (next, [])) :
      Stepped state .endSettings
        { state with
          app := .running { app with settings := next, savingSettings := none } }

variable {format urls json} {state next : Installation} {action : Action}

theorem stepped_of_running {app : RunningApp} (happ : state.app = .running app)
    (hstep : onRunning format urls json state app action = some next) :
    Stepped format urls json state action next := by
  cases action with
  | changePeers store =>
      rw [onRunning] at hstep
      split at hstep
      · next keys before hnode hidle =>
        obtain rfl := Option.some.inj hstep
        exact .changedPeers store happ hnode hidle
      · cases hstep
  | writePeers count =>
      obtain ⟨⟨keys, store⟩, hnode, hrest⟩ := Option.bind_eq_some_iff.mp hstep
      obtain ⟨⟨disk, rest⟩, hadvance, hlast⟩ := Option.bind_eq_some_iff.mp hrest
      dsimp only at hlast
      split at hlast
      · obtain rfl := Option.some.inj hlast
        exact .savedPeers happ hnode hadvance
      · next hleft =>
        obtain rfl := Option.some.inj hlast
        exact .wrotePeers happ hadvance (fun hnil => hleft hnil)
  | failPeers =>
      obtain rfl := Option.some.inj hstep
      exact .failedPeers happ
  | setConnectionMode mode =>
      rw [onRunning] at hstep
      split at hstep
      · next hidle =>
        obtain rfl := Option.some.inj hstep
        exact .setMode mode happ hidle
      · cases hstep
  | setRelayUrl url =>
      rw [onRunning] at hstep
      split at hstep
      · obtain rfl := Option.some.inj hstep
        exact .refused url happ
      · next hvalid hidle =>
        obtain rfl := Option.some.inj hstep
        exact .setUrl happ hidle hvalid
      · cases hstep
  | writeSettings count =>
      obtain ⟨⟨settings, writing⟩, hsaving, hrest⟩ :=
        Option.bind_eq_some_iff.mp hstep
      obtain ⟨⟨disk, rest⟩, hadvance, hlast⟩ := Option.bind_eq_some_iff.mp hrest
      obtain rfl := Option.some.inj hlast
      exact .wroteSettings happ hsaving hadvance
  | failSettings =>
      rw [onRunning] at hstep
      split at hstep
      · next hsaving =>
        obtain rfl := Option.some.inj hstep
        exact .failedSettings happ hsaving (List.cons_ne_nil _ _)
      · cases hstep
  | endSettings =>
      rw [onRunning] at hstep
      split at hstep
      · next hsaving =>
        obtain rfl := Option.some.inj hstep
        exact .endedSettings happ hsaving
      · cases hstep
  | _ => cases hstep

theorem stepped_launch (hoff : state.app = .off) (readable : Bool)
    (fresh : DeviceId) :
    Stepped format urls json state (.launch readable fresh)
      { state with app := launch format state.disk readable fresh } := by
  rw [launch]
  cases readable with
  | false => exact .nameless hoff nofun
  | true =>
      cases hread : (state.disk .deviceId).bind (readDeviceFile format) with
      | none => exact .nameless hoff fun _ => hread
      | some device => exact .known fresh hoff hread

theorem stepped_loadKeys {device : DeviceId} (happ : state.app = .named device)
    (readable : Bool) (generated : Except String Keys) :
    Stepped format urls json state (.loadKeys readable generated)
      { state with app := loadKeys state.disk device readable generated } := by
  cases readable with
  | false => exact .keyless happ
  | true =>
      cases hread : (state.disk .identityKey).bind Desktop.readKeys with
      | some keys =>
          have hload : loadKeys state.disk device true generated =
              .keyed device (some keys) := by
            simp only [loadKeys.eq_def, hread, if_true]
          rw [hload]
          exact .readKeys happ hread
      | none =>
          cases generated with
          | error text =>
              have hload : loadKeys state.disk device true (.error text) =
                  .keyed device none := by
                simp only [loadKeys.eq_def, hread, if_true]
              rw [hload]
              exact .keyless happ
          | ok keys =>
              have hload : loadKeys state.disk device true (.ok keys) =
                  .keying device keys (FileTask.overwriting .identityKey
                    [privateBytes keys, keyBytes keys.publicKey]) := by
                simp only [loadKeys.eq_def, hread, if_true]
              rw [hload]
              exact .madeKeys happ hread

theorem stepped_of_step (hstep : step format urls json state action = some next) :
    Stepped format urls json state action next := by
  unfold step at hstep
  split at hstep
  · obtain rfl := Option.some.inj hstep
    exact .stopped
  · next readable fresh hoff =>
    obtain rfl := Option.some.inj hstep
    exact stepped_launch hoff readable fresh
  · next count device writing happ =>
    obtain ⟨⟨disk, rest⟩, hadvance, hlast⟩ := Option.bind_eq_some_iff.mp hstep
    obtain rfl := Option.some.inj hlast
    exact .wroteName happ hadvance
  · next count device keys writing happ =>
    obtain ⟨⟨disk, rest⟩, hadvance, hlast⟩ := Option.bind_eq_some_iff.mp hstep
    obtain rfl := Option.some.inj hlast
    exact .wroteKeys happ hadvance
  · next happ =>
    obtain rfl := Option.some.inj hstep
    exact .failedName happ
  · next happ =>
    obtain rfl := Option.some.inj hstep
    exact .failedKeys happ
  · next happ =>
    obtain rfl := Option.some.inj hstep
    exact .endedName happ
  · next happ =>
    obtain rfl := Option.some.inj hstep
    exact .endedKeys happ
  · next readable generated device happ =>
    obtain rfl := Option.some.inj hstep
    exact stepped_loadKeys happ readable generated
  · next happ =>
    obtain rfl := Option.some.inj hstep
    exact .started happ
  · next happ => exact stepped_of_running happ hstep
  · cases hstep

/-! ## Whoever writes keeps to his files -/

variable (format json) in
/-- What is being written is what was begun. -/
def Shaped (state : Installation) : Prop :=
  match state.app with
  | .naming device writing =>
      FileTask.Overwrites state.disk .deviceId (deviceFile format device) writing
  | .keying _ keys writing =>
      FileTask.Overwrites state.disk .identityKey (keysFile keys) writing
  | .running app =>
      (app.savingPeers = [] ∨ ∃ keys store, app.node = some (keys, store) ∧
        FileTask.Replaces state.disk .newPeers .peers
          (json.peers (store.file format)) app.savingPeers) ∧
      ∀ saving ∈ app.savingSettings, saving.2 = [] ∨
        FileTask.Replaces state.disk .newSettings .settings
          (json.settings saving.1) saving.2
  | _ => True

/-- The files that a step may write. -/
def touched : App → Action → List StoredFile
  | .naming _ _, .write _ => [.deviceId]
  | .keying _ _ _, .write _ => [.identityKey]
  | .running _, .writePeers _ => [.peers, .newPeers]
  | .running _, .writeSettings _ => [.settings, .newSettings]
  | _, _ => []

theorem Shaped.frame (hshaped : Shaped format json state)
    (hstepped : Stepped format urls json state action next) {name : StoredFile}
    (hname : name ∉ touched state.app action) :
    next.disk name = state.disk name := by
  cases hstepped with
  | wroteName happ hadvance =>
      rw [Shaped, happ] at hshaped
      rw [happ] at hname
      exact hshaped.frame hadvance fun heq => hname (by simp [touched, heq])
  | wroteKeys happ hadvance =>
      rw [Shaped, happ] at hshaped
      rw [happ] at hname
      exact hshaped.frame hadvance fun heq => hname (by simp [touched, heq])
  | @wrotePeers app count rest disk happ hadvance hrest =>
      rw [Shaped, happ] at hshaped
      rw [happ] at hname
      obtain hidle | ⟨keys, store, -, hreplaces⟩ := hshaped.1
      · rw [hidle] at hadvance
        cases hadvance
      · exact hreplaces.frame hadvance (fun heq => hname (by simp [touched, heq]))
          fun heq => hname (by simp [touched, heq])
  | @savedPeers app count keys store disk happ hnode hadvance =>
      rw [Shaped, happ] at hshaped
      rw [happ] at hname
      obtain hidle | ⟨keys, store, -, hreplaces⟩ := hshaped.1
      · rw [hidle] at hadvance
        cases hadvance
      · exact hreplaces.frame hadvance (fun heq => hname (by simp [touched, heq]))
          fun heq => hname (by simp [touched, heq])
  | @wroteSettings app count settings writing rest disk happ hsaving hadvance =>
      rw [Shaped, happ] at hshaped
      rw [happ] at hname
      obtain hidle | hreplaces := hshaped.2 _ hsaving
      · dsimp only at hidle
        rw [hidle] at hadvance
        cases hadvance
      · exact hreplaces.frame hadvance (fun heq => hname (by simp [touched, heq]))
          fun heq => hname (by simp [touched, heq])
  | _ => rfl

theorem Shaped.step (hshaped : Shaped format json state)
    (hstepped : Stepped format urls json state action next) :
    Shaped format json next := by
  have hframe := @Shaped.frame format urls json state next action hshaped hstepped
  cases hstepped with
  | refused => exact hshaped
  | nameless hoff hnone => exact .opening (by simp)
  | madeKeys happ hnone => exact .opening (by simp [keysFile])
  | wroteName happ hadvance =>
      rw [Shaped, happ] at hshaped
      exact hshaped.advance hadvance
  | wroteKeys happ hadvance =>
      rw [Shaped, happ] at hshaped
      exact hshaped.advance hadvance
  | started happ => exact ⟨.inl rfl, nofun⟩
  | @changedPeers app keys before store happ hnode hidle =>
      rw [Shaped, happ] at hshaped
      exact ⟨.inr ⟨keys, store, rfl, .opening⟩, hshaped.2⟩
  | @wrotePeers app count rest disk happ hadvance hrest =>
      rw [Shaped, happ] at hshaped
      rw [happ] at hframe
      refine ⟨.inr ?_, fun saving hsaving => ?_⟩
      · obtain hidle | ⟨keys, store, hnode, hreplaces⟩ := hshaped.1
        · rw [hidle] at hadvance
          cases hadvance
        · obtain ⟨hnext, -⟩ | ⟨hnil, -⟩ := hreplaces.advance (by decide) hadvance
          · exact ⟨keys, store, hnode, hnext⟩
          · exact absurd hnil hrest
      · exact (hshaped.2 saving hsaving).imp_right
          fun hreplaces => hreplaces.congr (hframe (by simp [touched]))
  | @savedPeers app count keys store disk happ hnode hadvance =>
      rw [Shaped, happ] at hshaped
      rw [happ] at hframe
      exact ⟨.inl rfl, fun saving hsaving => (hshaped.2 saving hsaving).imp_right
        fun hreplaces => hreplaces.congr (hframe (by simp [touched]))⟩
  | failedPeers happ =>
      rw [Shaped, happ] at hshaped
      exact ⟨.inl rfl, hshaped.2⟩
  | setMode mode happ hidle =>
      rw [Shaped, happ] at hshaped
      refine ⟨hshaped.1, fun saving hsaving => .inr ?_⟩
      obtain rfl := Option.some.inj hsaving
      exact .opening
  | setUrl happ hidle hvalid =>
      rw [Shaped, happ] at hshaped
      refine ⟨hshaped.1, fun saving hsaving => .inr ?_⟩
      obtain rfl := Option.some.inj hsaving
      exact .opening
  | @wroteSettings app count settings writing rest disk happ hsaving hadvance =>
      rw [Shaped, happ] at hshaped
      rw [happ] at hframe
      refine ⟨hshaped.1.imp_right ?_, fun saving hnext => ?_⟩
      · rintro ⟨keys, store, hnode, hreplaces⟩
        exact ⟨keys, store, hnode, hreplaces.congr (hframe (by simp [touched]))⟩
      · obtain rfl := Option.some.inj hnext
        obtain hidle | hreplaces := hshaped.2 _ hsaving
        · dsimp only at hidle
          rw [hidle] at hadvance
          cases hadvance
        · obtain ⟨hnext, -⟩ | ⟨hnil, -⟩ := hreplaces.advance (by decide) hadvance
          · exact .inr hnext
          · exact .inl hnil
  | failedSettings happ hsaving hleft =>
      rw [Shaped, happ] at hshaped
      exact ⟨hshaped.1, nofun⟩
  | endedSettings happ hsaving =>
      rw [Shaped, happ] at hshaped
      exact ⟨hshaped.1, nofun⟩
  | _ => trivial

/-! ## The keys -/

/-- The keys that are in the file. -/
def storedKeys (state : Installation) : Option Keys :=
  (state.disk .identityKey).bind readKeys

/-- The keys that are in use. -/
def usedKeys (state : Installation) : Option Keys :=
  match state.app with
  | .keyed _ keys => keys
  | .running app => app.node.map Prod.fst
  | _ => none

/-- What a step does with the keys. -/
inductive KeyStep (state : Installation) : Action → Installation → Prop
  | kept {action : Action} {next : Installation}
      (hstored : next.storedKeys = state.storedKeys)
      (hused : ∀ keys ∈ next.usedKeys, keys ∈ state.usedKeys)
      (hidle : ∀ device keys writing, next.app ≠ .keying device keys writing) :
      KeyStep state action next
  | loaded {action : Action} {next : Installation} {keys : Keys}
      (hstored : state.storedKeys = some keys)
      (hsame : next.storedKeys = state.storedKeys)
      (hused : next.usedKeys = some keys)
      (hidle : ∀ device keys writing, next.app ≠ .keying device keys writing) :
      KeyStep state action next
  | made {readable : Bool} {next : Installation} {device : DeviceId} {keys : Keys}
      {writing : Writing} (hnone : state.storedKeys = none)
      (hsame : next.storedKeys = state.storedKeys)
      (happ : next.app = .keying device keys writing) :
      KeyStep state (.loadKeys readable (.ok keys)) next
  | wrote {action : Action} {next : Installation} {device : DeviceId} {keys : Keys}
      {writing rest : Writing} {front : Bytes}
      (happ : state.app = .keying device keys writing)
      (hnext : next.app = .keying device keys rest)
      (hdisk : next.disk .identityKey = some front) (hfront : front <+: keysFile keys) :
      KeyStep state action next
  | ended {action : Action} {next : Installation} {device : DeviceId} {keys : Keys}
      (happ : state.app = .keying device keys [])
      (hsame : next.storedKeys = state.storedKeys)
      (hused : next.usedKeys = some keys)
      (hidle : ∀ device keys writing, next.app ≠ .keying device keys writing) :
      KeyStep state action next

theorem keyStep_of_stepped (hshaped : Shaped format json state)
    (hstepped : Stepped format urls json state action next) :
    KeyStep state action next := by
  have hsame : StoredFile.identityKey ∉ touched state.app action →
      next.storedKeys = state.storedKeys := fun hname =>
    congrArg (·.bind Desktop.readKeys) (hshaped.frame hstepped hname)
  cases hstepped with
  | readKeys happ hread => exact .loaded hread rfl rfl nofun
  | madeKeys happ hnone => exact .made hnone rfl rfl
  | wroteKeys happ hadvance =>
      rw [Shaped, happ] at hshaped
      obtain ⟨front, hdisk, hfront⟩ := hshaped.front hadvance
      exact .wrote happ rfl hdisk hfront
  | endedKeys happ => exact .ended happ rfl rfl nofun
  | wroteName happ hadvance =>
      exact .kept (hsame (by simp [happ, touched])) nofun nofun
  | refused url happ =>
      refine .kept rfl (fun _ hkeys => hkeys) fun device keys writing => ?_
      rw [happ]
      exact nofun
  | @started starts readable device keys happ =>
      refine .kept rfl (fun found hfound => ?_) nofun
      simp only [usedKeys, Desktop.Installation.started] at hfound
      simp only [usedKeys, happ]
      cases starts with
      | false => simp at hfound
      | true => simpa using hfound
  | changedPeers store happ hnode hidle =>
      exact .kept rfl (by simp [usedKeys, happ, hnode]) nofun
  | wrotePeers happ hadvance hrest =>
      exact .kept (hsame (by simp [happ, touched])) (by simp [usedKeys, happ]) nofun
  | savedPeers happ hnode hadvance =>
      exact .kept (hsame (by simp [happ, touched])) (by simp [usedKeys, happ]) nofun
  | wroteSettings happ hsaving hadvance =>
      exact .kept (hsame (by simp [happ, touched])) (by simp [usedKeys, happ]) nofun
  | failedPeers happ => exact .kept rfl (by simp [usedKeys, happ]) nofun
  | setMode mode happ hidle =>
      exact .kept rfl (by simp [usedKeys, happ, updateSettings]) nofun
  | setUrl happ hidle hvalid =>
      exact .kept rfl (by simp [usedKeys, happ, updateSettings]) nofun
  | failedSettings happ hsaving hleft =>
      exact .kept rfl (by simp [usedKeys, happ]) nofun
  | endedSettings happ hsaving => exact .kept rfl (by simp [usedKeys, happ]) nofun
  | _ => exact .kept rfl nofun nofun

/-- New keys are a pair. -/
def Generates (publicOf : BitVec 256 → PublicKey) : Action → Prop
  | .loadKeys _ (.ok keys) => keys.Pair publicOf
  | _ => True

/-- The keys in the file and those being written are pairs, and the ones in use
are in the file. -/
structure KeysSound (publicOf : BitVec 256 → PublicKey) (state : Installation) :
    Prop where
  stored : ∀ keys ∈ state.storedKeys, keys.Pair publicOf
  used : ∀ keys ∈ state.usedKeys, state.storedKeys = some keys
  made : ∀ {device keys writing}, state.app = .keying device keys writing →
    keys.Pair publicOf

variable {publicOf : BitVec 256 → PublicKey}

theorem KeysSound.step (hsound : state.KeysSound publicOf)
    (hshaped : Shaped format json state) (hgenerates : Generates publicOf action)
    (hstepped : Stepped format urls json state action next) :
    next.KeysSound publicOf := by
  cases keyStep_of_stepped hshaped hstepped with
  | kept hstored hused hidle =>
      refine ⟨?_, ?_, fun happ => absurd happ (hidle _ _ _)⟩
      · rw [hstored]
        exact hsound.stored
      · intro keys hkeys
        rw [hstored]
        exact hsound.used keys (hused keys hkeys)
  | loaded hstored hsame hused hidle =>
      refine ⟨?_, ?_, fun happ => absurd happ (hidle _ _ _)⟩
      · rw [hsame]
        exact hsound.stored
      · intro keys hkeys
        rw [hused] at hkeys
        rw [hsame, hstored, ← Option.mem_def.mp hkeys]
  | made hnone hsame happ =>
      refine ⟨?_, ?_, fun hkeying => ?_⟩
      · rw [hsame]
        exact hsound.stored
      · intro keys hkeys
        rw [usedKeys, happ] at hkeys
        cases hkeys
      · rw [happ] at hkeying
        cases hkeying
        exact hgenerates
  | wrote happ hkeying hdisk hfront =>
      refine ⟨fun found hfound => ?_, fun keys hkeys => ?_, fun hmade => ?_⟩
      · rw [storedKeys, hdisk] at hfound
        rw [readKeys_front hfront hfound]
        exact hsound.made happ
      · rw [usedKeys, hkeying] at hkeys
        cases hkeys
      · rw [hkeying] at hmade
        cases hmade
        exact hsound.made happ
  | @ended action next device keys happ hsame hused hidle =>
      rw [Shaped, happ] at hshaped
      have hwhole : state.storedKeys = some keys := by
        rw [storedKeys, hshaped.done, Option.bind_some, readKeys_keysFile]
      refine ⟨?_, ?_, fun hkeying => absurd hkeying (hidle _ _ _)⟩
      · rw [hsame]
        exact hsound.stored
      · intro keys hkeys
        rw [hused] at hkeys
        rw [hsame, hwhole, ← Option.mem_def.mp hkeys]

/-- These keys are in the file, and no others are used or made. -/
structure HasKeys (keys : Keys) (state : Installation) : Prop where
  stored : state.storedKeys = some keys
  used : ∀ other ∈ state.usedKeys, other = keys
  idle : ∀ device other writing, state.app ≠ .keying device other writing

/-- Keys that are in the file stay there. -/
theorem HasKeys.step {keys : Keys} (hkeys : HasKeys keys state)
    (hshaped : Shaped format json state)
    (hstepped : Stepped format urls json state action next) :
    HasKeys keys next := by
  cases keyStep_of_stepped hshaped hstepped with
  | kept hstored hused hidle =>
      exact ⟨hstored.trans hkeys.stored,
        fun other hother => hkeys.used other (hused other hother), hidle⟩
  | loaded hstored hsame hused hidle =>
      refine ⟨hsame.trans hkeys.stored, fun other hother => ?_, hidle⟩
      rw [hused] at hother
      have hsome := hstored.symm.trans hkeys.stored
      exact (Option.mem_some.mp hother).symm.trans (Option.some.inj hsome)
  | made hnone hsame happ => exact absurd (hnone.symm.trans hkeys.stored) nofun
  | wrote happ hkeying hdisk hfront => exact absurd happ (hkeys.idle _ _ _)
  | ended happ hsame hused hidle => exact absurd happ (hkeys.idle _ _ _)

/-! ## The device ID -/

variable (format) in
/-- The device ID that is in the file. -/
def storedDevice (state : Installation) : Option DeviceId :=
  (state.disk .deviceId).bind (readDeviceFile format)

/-- The device ID that is in use. -/
def usedDevice (state : Installation) : Option DeviceId :=
  match state.app with
  | .off => none
  | .naming _ _ => none
  | .named device => some device
  | .keying device _ _ => some device
  | .keyed device _ => some device
  | .running app => some app.device

/-- The file of the device ID can be read, and written when it must be. -/
def Untroubled (state : Installation) : Action → Prop
  | .launch readable _ => readable = true
  | .failWrite =>
      match state.app with
      | .naming _ _ => False
      | _ => True
  | _ => True

instance (state : Installation) (action : Action) :
    Decidable (state.Untroubled action) := by
  apply action.casesOn (motive := fun action =>
    Decidable (state.Untroubled action))
  all_goals
    intros
    dsimp only [Untroubled]
    try split
    all_goals infer_instance

theorem not_untroubled_failWrite {device : DeviceId} {writing : Writing}
    (happ : state.app = .naming device writing) :
    ¬ state.Untroubled .failWrite := by
  rw [Untroubled, happ]
  exact id

variable (format) in
/-- What a step does with the device ID. -/
inductive DeviceStep (state : Installation) : Action → Installation → Prop
  | kept {action : Action} {next : Installation}
      (hstored : next.storedDevice format = state.storedDevice format)
      (hused : ∀ device ∈ next.usedDevice, device ∈ state.usedDevice)
      (hidle : ∀ device writing, next.app ≠ .naming device writing) :
      DeviceStep state action next
  | loaded {action : Action} {next : Installation} {device : DeviceId}
      (hstored : state.storedDevice format = some device)
      (hsame : next.storedDevice format = state.storedDevice format)
      (hused : next.usedDevice = some device)
      (hidle : ∀ device writing, next.app ≠ .naming device writing) :
      DeviceStep state action next
  | began {readable : Bool} {fresh : DeviceId} {next : Installation}
      {writing : Writing}
      (hnone : readable = true → state.storedDevice format = none)
      (happ : next.app = .naming fresh writing) :
      DeviceStep state (.launch readable fresh) next
  | wrote {action : Action} {next : Installation} {device : DeviceId}
      {writing rest : Writing} (happ : state.app = .naming device writing)
      (hnext : next.app = .naming device rest) :
      DeviceStep state action next
  | failed {next : Installation} {device : DeviceId} {writing : Writing}
      (happ : state.app = .naming device writing) :
      DeviceStep state .failWrite next
  | ended {action : Action} {next : Installation} {device : DeviceId}
      (happ : state.app = .naming device [])
      (hsame : next.storedDevice format = state.storedDevice format)
      (hused : next.usedDevice = some device)
      (hidle : ∀ device writing, next.app ≠ .naming device writing) :
      DeviceStep state action next

theorem deviceStep_of_stepped (hshaped : Shaped format json state)
    (hstepped : Stepped format urls json state action next) :
    DeviceStep format state action next := by
  have hsame : StoredFile.deviceId ∉ touched state.app action →
      next.storedDevice format = state.storedDevice format := fun hname =>
    congrArg (·.bind (readDeviceFile format)) (hshaped.frame hstepped hname)
  cases hstepped with
  | known fresh hoff hread => exact .loaded hread rfl rfl nofun
  | nameless hoff hnone => exact .began hnone rfl
  | wroteName happ hadvance => exact .wrote happ rfl
  | failedName happ => exact .failed happ
  | endedName happ => exact .ended happ rfl rfl nofun
  | stopped => exact .kept rfl nofun nofun
  | refused url happ =>
      refine .kept rfl (fun _ hdevice => hdevice) fun device writing => ?_
      rw [happ]
      exact nofun
  | started happ => exact .kept rfl (by simp [usedDevice, happ, started]) nofun
  | setMode mode happ hidle =>
      exact .kept rfl (by simp [usedDevice, happ, updateSettings]) nofun
  | setUrl happ hidle hvalid =>
      exact .kept rfl (by simp [usedDevice, happ, updateSettings]) nofun
  | wroteKeys happ hadvance =>
      exact .kept (hsame (by simp [happ, touched])) (by simp [usedDevice, happ]) nofun
  | wrotePeers happ hadvance hrest =>
      exact .kept (hsame (by simp [happ, touched])) (by simp [usedDevice, happ]) nofun
  | savedPeers happ hnode hadvance =>
      exact .kept (hsame (by simp [happ, touched])) (by simp [usedDevice, happ]) nofun
  | wroteSettings happ hsaving hadvance =>
      exact .kept (hsame (by simp [happ, touched])) (by simp [usedDevice, happ]) nofun
  | keyless happ => exact .kept rfl (by simp [usedDevice, happ]) nofun
  | readKeys happ hread => exact .kept rfl (by simp [usedDevice, happ]) nofun
  | madeKeys happ hnone => exact .kept rfl (by simp [usedDevice, happ]) nofun
  | failedKeys happ => exact .kept rfl (by simp [usedDevice, happ]) nofun
  | endedKeys happ => exact .kept rfl (by simp [usedDevice, happ]) nofun
  | changedPeers store happ hnode hidle =>
      exact .kept rfl (by simp [usedDevice, happ]) nofun
  | failedPeers happ => exact .kept rfl (by simp [usedDevice, happ]) nofun
  | failedSettings happ hsaving hleft =>
      exact .kept rfl (by simp [usedDevice, happ]) nofun
  | endedSettings happ hsaving =>
      exact .kept rfl (by simp [usedDevice, happ]) nofun

variable (format) in
/-- The device ID in use is the one in the file. -/
def DeviceSound (state : Installation) : Prop :=
  ∀ device ∈ state.usedDevice, state.storedDevice format = some device

theorem DeviceSound.step (hformat : format.Hyphenated)
    (hsound : state.DeviceSound format) (hshaped : Shaped format json state)
    (huntroubled : state.Untroubled action)
    (hstepped : Stepped format urls json state action next) :
    next.DeviceSound format := by
  intro device hdevice
  cases deviceStep_of_stepped hshaped hstepped with
  | kept hstored hused hidle => exact hstored.trans (hsound device (hused _ hdevice))
  | loaded hstored hsame hused hidle =>
      rw [hused] at hdevice
      rw [hsame, hstored, ← Option.mem_def.mp hdevice]
  | began hnone happ =>
      rw [usedDevice, happ] at hdevice
      cases hdevice
  | wrote happ hnaming =>
      rw [usedDevice, hnaming] at hdevice
      cases hdevice
  | failed happ => exact (not_untroubled_failWrite happ huntroubled).elim
  | @ended action next written happ hsame hused hidle =>
      rw [Shaped, happ] at hshaped
      have hwhole : state.storedDevice format = some written := by
        rw [storedDevice, hshaped.done]
        exact readDeviceFile_deviceFile hformat written
      rw [hused] at hdevice
      rw [hsame, hwhole, ← Option.mem_def.mp hdevice]

variable (format) in
/-- This device ID is in the file, and no other is used or made. -/
structure HasDevice (device : DeviceId) (state : Installation) : Prop where
  stored : state.storedDevice format = some device
  used : ∀ other ∈ state.usedDevice, other = device
  idle : ∀ other writing, state.app ≠ .naming other writing

theorem HasDevice.step {device : DeviceId} (hdevice : HasDevice format device state)
    (hshaped : Shaped format json state) (huntroubled : state.Untroubled action)
    (hstepped : Stepped format urls json state action next) :
    HasDevice format device next := by
  cases deviceStep_of_stepped hshaped hstepped with
  | kept hstored hused hidle =>
      exact ⟨hstored.trans hdevice.stored,
        fun other hother => hdevice.used other (hused other hother), hidle⟩
  | loaded hstored hsame hused hidle =>
      refine ⟨hsame.trans hdevice.stored, fun other hother => ?_, hidle⟩
      rw [hused] at hother
      have hsome := hstored.symm.trans hdevice.stored
      exact (Option.mem_some.mp hother).symm.trans (Option.some.inj hsome)
  | began hnone happ =>
      exact absurd ((hnone huntroubled).symm.trans hdevice.stored) nofun
  | wrote happ hnaming => exact absurd happ (hdevice.idle _ _)
  | failed happ => exact absurd happ (hdevice.idle _ _)
  | ended happ hsame hused hidle => exact absurd happ (hdevice.idle _ _)

/-! ## An example of JSON -/

section Example

def beforeUrl : ConnectionMode → List Char
  | .lan => "\x7b\n  \"connectionMode\": \"lan\",\n  \"relayUrl\": \"".toList
  | .relay => "\x7b\n  \"connectionMode\": \"relay\",\n  \"relayUrl\": \"".toList

def afterUrl : List Char := "\"\n\x7d".toList

/-- Settings with a URL in which nothing has to be escaped. -/
def settingsText (settings : Settings) : String :=
  String.ofList
    (beforeUrl settings.connectionMode ++ (settings.relayUrl.toList ++ afterUrl))

/-- The settings with this mode, if the text is theirs. -/
def readMode (mode : ConnectionMode) (chars : List Char) : Option Settings :=
  let rest := chars.drop (beforeUrl mode).length
  if beforeUrl mode <+: chars ∧ afterUrl <:+ rest then
    some ⟨mode, String.ofList (rest.rdrop afterUrl.length)⟩
  else none

def readSettingsText (text : String) : Option Settings :=
  readMode .lan text.toList <|> readMode .relay text.toList

theorem readMode_settingsText (settings : Settings) :
    readMode settings.connectionMode (settingsText settings).toList =
      some settings := by
  rw [settingsText, String.toList_ofList, readMode, List.drop_left,
    if_pos ⟨List.prefix_append _ _, List.suffix_append _ _⟩,
    List.rdrop_append_length]
  simp

theorem readSettingsText_settingsText (settings : Settings) :
    readSettingsText (settingsText settings) = some settings := by
  have hread := readMode_settingsText settings
  cases hmode : settings.connectionMode with
  | lan =>
      rw [hmode] at hread
      rw [readSettingsText, hread]
      rfl
  | relay =>
      have hlan : ¬ beforeUrl .lan <+: (settingsText settings).toList := by
        intro hprefix
        rw [settingsText, String.toList_ofList, hmode] at hprefix
        have hboth := List.prefix_of_prefix_length_le hprefix
          (List.prefix_append _ _) (by decide +kernel)
        exact absurd hboth (by decide +kernel)
      rw [hmode] at hread
      rw [readSettingsText, readMode, if_neg fun h => hlan h.1, hread]
      rfl

/-- A device that was paired without an address. -/
def bedroom : Peer := ⟨⟨2⟩, "bedroom", 9, 5, none⟩

def bedroomText : String :=
  "\x7b\n  \"version\": 1,\n  \"peers\": [\n    \x7b\n      \"device_id\": " ++
    "\"00000000-0000-0000-0000-000000000002\",\n      \"name\": \"bedroom\",\n" ++
    "      \"public_key\": \"00000000000000000000000000000000" ++
    "00000000000000000000000000000009\",\n      \"paired_at_ms\": 5,\n" ++
    "      \"last_address\": null\n    \x7d\n  ],\n  \"removed\": []\n\x7d"

def bedroomFile : PeerFile := PeerStore.file hyphenatedFormat ⟨[bedroom], []⟩

/-- Of the files of paired devices it knows the one with the bedroom alone. -/
def exampleJson : Json where
  settings settings := utf8 (settingsText settings)
  readSettings bytes := (fromUtf8 bytes).bind readSettingsText
  peers file := if file = bedroomFile then utf8 bedroomText else []
  readPeers bytes := if bytes = utf8 bedroomText then some bedroomFile else none

theorem exampleJson_settings (settings : Settings) :
    exampleJson.readSettings (exampleJson.settings settings) = some settings := by
  dsimp only [exampleJson]
  rw [fromUtf8_utf8, Option.bind_some, readSettingsText_settingsText]

end Example

/-! ## Runs -/

variable {first final : Installation} {actions : List Action}

/-- What each step keeps, given that the writers keep to their files. -/
theorem run_along_of_shaped {Inv : Installation → Prop}
    {Allowed : Installation → Action → Prop}
    (hstep : ∀ {state next : Installation} {action : Action}, Inv state →
      Shaped format json state → Allowed state action →
        Stepped format urls json state action next → Inv next)
    (hinv : Inv first) (hshaped : Shaped format json first)
    (hallowed : (machine format urls json).Along Allowed first actions)
    (hrun : (machine format urls json).run first actions = some final) :
    Inv final ∧ Shaped format json final := by
  have hkept : ∀ state action next, Inv state ∧ Shaped format json state →
      Allowed state action →
        (machine format urls json).step state action = some next →
          Inv next ∧ Shaped format json next := by
    rintro state action next ⟨hinv, hshaped⟩ haction hnext
    have hstepped := stepped_of_step hnext
    exact ⟨hstep hinv hshaped haction hstepped, hshaped.step hstepped⟩
  exact Machine.run_of_invariant hkept ⟨hinv, hshaped⟩ hallowed hrun

/-- The same for a condition on the actions alone. -/
theorem run_of_shaped {Inv : Installation → Prop} {Allowed : Action → Prop}
    (hstep : ∀ {state next : Installation} {action : Action}, Inv state →
      Shaped format json state → Allowed action →
        Stepped format urls json state action next → Inv next)
    (hinv : Inv first) (hshaped : Shaped format json first)
    (hallowed : ∀ action ∈ actions, Allowed action)
    (hrun : (machine format urls json).run first actions = some final) :
    Inv final ∧ Shaped format json final :=
  run_along_of_shaped hstep hinv hshaped
    (Machine.along_of_forall _ hallowed first) hrun

theorem shaped_installed (disk : Stored) :
    Shaped format json (installed format json disk) :=
  trivial

theorem keysSound_of_run {disk : Stored}
    (hpairs : ∀ keys ∈ (disk .identityKey).bind readKeys, keys.Pair publicOf)
    (hgenerates : ∀ action ∈ actions, Generates publicOf action)
    (hrun : (machine format urls json).run (installed format json disk) actions =
      some final) :
    final.KeysSound publicOf ∧ Shaped format json final := by
  have hfirst : (installed format json disk).KeysSound publicOf :=
    ⟨hpairs, nofun, nofun⟩
  exact run_of_shaped (fun hsound hshaped hgen hstepped =>
    hsound.step hshaped hgen hstepped) hfirst (shaped_installed disk) hgenerates
      hrun

/-- Whoever uses keys has them in the file, and makes no others. -/
theorem KeysSound.hasKeys (hsound : state.KeysSound publicOf) {keys : Keys}
    (hused : keys ∈ state.usedKeys) : HasKeys keys state where
  stored := hsound.used keys hused
  used other hother := Option.some.inj (hother.symm.trans hused)
  idle device other writing happ := by
    rw [usedKeys, happ] at hused
    cases hused

theorem DeviceSound.hasDevice (hsound : state.DeviceSound format)
    {device : DeviceId} (hused : device ∈ state.usedDevice) :
    HasDevice format device state where
  stored := hsound device hused
  used other hother := Option.some.inj (hother.symm.trans hused)
  idle other writing happ := by
    rw [usedDevice, happ] at hused
    cases hused

/-- However often the app is stopped, and whatever it was writing then, the keys
that it uses are a pair, and it never uses others later.  If the file of the
device ID can be read, and written when it must be, the device ID stays the same
too. -/
theorem same_device_after_restarts (hformat : format.Hyphenated) {disk : Stored}
    (hpairs : ∀ keys ∈ (disk .identityKey).bind readKeys, keys.Pair publicOf)
    {front back : List Action} {middle : Installation}
    (hgenerates : ∀ action ∈ front, Generates publicOf action)
    (hfront : (machine format urls json).run (installed format json disk) front =
      some middle)
    (hback : (machine format urls json).run middle back = some final) :
    (∀ keys ∈ middle.usedKeys, keys.Pair publicOf ∧
      ∀ other ∈ final.usedKeys, other = keys) ∧
    ((machine format urls json).Along Untroubled (installed format json disk)
        (front ++ back) →
      ∀ device ∈ middle.usedDevice, ∀ other ∈ final.usedDevice, other = device) := by
  obtain ⟨hsound, hshaped⟩ := keysSound_of_run hpairs hgenerates hfront
  constructor
  · intro keys hused
    have hkeys := hsound.hasKeys hused
    have hlater : HasKeys keys final ∧ Shaped format json final :=
      run_of_shaped (fun hkeys hshaped _ hstepped => hkeys.step hshaped hstepped)
        hkeys hshaped (fun _ _ => trivial) hback
    exact ⟨hsound.stored keys hkeys.stored, hlater.1.used⟩
  · intro huntroubled device hused
    obtain ⟨hcalm, hlaterCalm⟩ := huntroubled.append hfront
    have hfirst : (installed format json disk).DeviceSound format := nofun
    have hnamed : middle.DeviceSound format ∧ Shaped format json middle :=
      run_along_of_shaped (fun hsound hshaped hcalm hstepped =>
        hsound.step hformat hshaped hcalm hstepped) hfirst (shaped_installed disk)
          hcalm hfront
    have hdevice := hnamed.1.hasDevice hused
    have hlater : HasDevice format device final ∧ Shaped format json final :=
      run_along_of_shaped (fun hdevice hshaped hcalm hstepped =>
        hdevice.step hshaped hcalm hstepped) hdevice hshaped hlaterCalm hback
    exact hlater.1.used

/-- The app is stopped while it writes its first keys, and cannot write the second
ones. -/
def stoppedEarly : List Action :=
  [.launch true ⟨1⟩, .write 0, .write 40, .endWrite, .loadKeys true (.ok ⟨5, 5⟩),
    .write 0, .write 20, .stop, .launch true ⟨2⟩, .loadKeys true (.ok ⟨6, 6⟩),
    .write 0, .failWrite, .stop, .launch true ⟨2⟩, .loadKeys true (.ok ⟨7, 7⟩),
    .write 0, .write 32, .write 32, .endWrite]

def startedAgain : List Action :=
  [.start true true, .stop, .launch true ⟨3⟩, .loadKeys true (.ok ⟨9, 9⟩)]

/-- The third keys and the first device ID are the ones that stay. -/
theorem same_device_after_restarts_stoppedEarly :
    let machine := machine hyphenatedFormat exampleUrls exampleJson
    ∃ middle final,
      machine.run (installed hyphenatedFormat exampleJson fun _ => none)
        stoppedEarly = some middle ∧
      machine.run middle startedAgain = some final ∧
      (middle.usedKeys = some ⟨7, 7⟩ ∧ final.usedKeys = some ⟨7, 7⟩ ∧
        middle.usedDevice = some ⟨1⟩ ∧ final.usedDevice = some ⟨1⟩) ∧
      (∀ keys ∈ middle.usedKeys, keys.Pair id ∧
        ∀ other ∈ final.usedKeys, other = keys) ∧
      ∀ device ∈ middle.usedDevice, ∀ other ∈ final.usedDevice, other = device := by
  intro machine
  let first := installed hyphenatedFormat exampleJson fun _ => none
  obtain ⟨middle, hfront, final, hback, hused⟩ :
      ∃ middle ∈ machine.run first stoppedEarly,
        ∃ final ∈ machine.run middle startedAgain,
          middle.usedKeys = some ⟨7, 7⟩ ∧ final.usedKeys = some ⟨7, 7⟩ ∧
            middle.usedDevice = some ⟨1⟩ ∧ final.usedDevice = some ⟨1⟩ := by
    decide +kernel
  have hgenerates : ∀ action ∈ stoppedEarly, Generates id action := by
    simp [stoppedEarly, Generates, Keys.Pair]
  have hcalm : machine.Along Untroubled first (stoppedEarly ++ startedAgain) := by
    decide +kernel
  obtain ⟨hkeys, hdevice⟩ := same_device_after_restarts hyphenatedFormat_hyphenated
    (by simp) hgenerates hfront hback
  exact ⟨middle, final, hfront, hback, hused, hkeys, hdevice hcalm⟩

end Installation

end Cled.Desktop
