import Cled.Desktop.Restarting

/-!
# What was saved is found again

The settings and the paired devices are written beside the old file, which is
replaced when the new one is whole.  So a start finds what was saved last, also
when the app was stopped in the middle of saving.
-/

namespace Cled.Desktop

open Cled.Core Cled.Clipboard Cled.Sync Cled.Lan

/-! ## The settings -/

/-- The settings that were saved last. -/
def RunningApp.savedSettings (app : RunningApp) : Settings :=
  match app.savingSettings with
  | some (next, []) => next
  | _ => app.settings

theorem RunningApp.savedSettings_of_idle {app : RunningApp}
    (hidle : app.savingSettings = none) : app.savedSettings = app.settings := by
  rw [savedSettings, hidle]

theorem RunningApp.savedSettings_of_left {app : RunningApp} {next : Settings}
    {writing : Writing} (hsaving : app.savingSettings = some (next, writing))
    (hleft : writing ≠ []) : app.savedSettings = app.settings := by
  rw [savedSettings, hsaving]
  cases writing with
  | nil => exact absurd rfl hleft
  | cons task writing => rfl

/-- With this relay URL the settings are not changed when they are loaded. -/
def Usable (urls : UrlFormat) (settings : Settings) : Prop :=
  settings.relayUrl = defaultRelayUrl ∨
    ∃ url, validateRelayUrl urls settings.relayUrl = .ok url

section Load

variable {urls : UrlFormat} {json : Json} {disk other : Stored}

theorem loadSettings_congr (hsame : other .settings = disk .settings)
    (readable : Bool) :
    loadSettings urls json other readable = loadSettings urls json disk readable := by
  rw [loadSettings, loadSettings, hsame]

theorem usable_loadSettings (readable : Bool) :
    Usable urls (loadSettings urls json disk readable) := by
  rw [loadSettings]
  split
  · next hvalid => exact .inr ⟨_, hvalid⟩
  · exact .inl rfl

theorem loadSettings_of_usable {settings : Settings}
    (hread : json.readSettings (json.settings settings) = some settings)
    (husable : Usable urls settings)
    (hdisk : disk .settings = some (json.settings settings)) :
    loadSettings urls json disk true = settings := by
  rw [loadSettings, if_pos rfl, hdisk]
  dsimp only
  rw [hread, Option.getD_some]
  split
  · rfl
  · next hinvalid =>
    rcases husable with hdefault | ⟨url, hvalid⟩
    · rw [← hdefault]
    · cases hinvalid.symm.trans hvalid

end Load

namespace Installation

variable {format : UuidFormat} {urls : UrlFormat} {json : Json}
  {state next : Installation} {action : Action}

/-- This holds of the app if it is running. -/
def WhileRunning (state : Installation) (P : RunningApp → Prop) : Prop :=
  match state.app with
  | .running app => P app
  | _ => True

def runningApp (state : Installation) : Option RunningApp :=
  match state.app with
  | .running app => some app
  | _ => none

theorem app_of_runningApp {app : RunningApp} (happ : state.runningApp = some app) :
    state.app = .running app := by
  rw [runningApp] at happ
  split at happ
  · next hrunning =>
    rw [hrunning, Option.some.inj happ]
  · cases happ

theorem WhileRunning.of_running {P : RunningApp → Prop} {app : RunningApp}
    (hwhile : state.WhileRunning P) (happ : state.app = .running app) : P app := by
  rw [WhileRunning, happ] at hwhile
  exact hwhile

variable (urls json) in
/-- The file has what was saved last, and it will stay as it is when it is
loaded. -/
structure KeepsSettings (disk : Stored) (app : RunningApp) : Prop where
  stored : loadSettings urls json disk true = app.savedSettings
  usable : Usable urls app.settings
  saving : ∀ saving ∈ app.savingSettings, Usable urls saving.1

section Started

variable (disk : Stored) (device : DeviceId) (keys : Option Keys)
  (starts readable : Bool)

theorem settings_started :
    (started format urls json disk device keys starts readable).settings =
      loadSettings urls json disk readable := by
  rw [started]

theorem savingSettings_started :
    (started format urls json disk device keys starts readable).savingSettings =
      none := by
  rw [started]

theorem keepsSettings_started :
    KeepsSettings urls json disk
      (started format urls json disk device keys starts true) := by
  refine ⟨?_, ?_, ?_⟩
  · rw [RunningApp.savedSettings_of_idle (savingSettings_started ..),
      settings_started]
  · rw [settings_started]
    exact usable_loadSettings true
  · rw [savingSettings_started]
    simp

end Started

variable (urls json) in
def SettingsSound (state : Installation) : Prop :=
  state.WhileRunning (KeepsSettings urls json state.disk)

/-- The file of the settings can be read, if there is one. -/
def FindsSettings : Action → Prop
  | .start _ readable => readable = true
  | _ => True

theorem SettingsSound.step
    (hlossless : ∀ settings,
      json.readSettings (json.settings settings) = some settings)
    (hsound : state.SettingsSound urls json) (hshaped : Shaped format json state)
    (hfinds : FindsSettings action)
    (hstepped : Stepped format urls json state action next) :
    next.SettingsSound urls json := by
  have hframe := @Shaped.frame format urls json state next action hshaped hstepped
  cases hstepped with
  | refused => exact hsound
  | @started starts readable device keys happ =>
      obtain rfl : readable = true := hfinds
      exact keepsSettings_started state.disk device keys starts
  | @changedPeers app keys before store happ hnode hidle =>
      have hsound := hsound.of_running happ
      exact ⟨hsound.stored, hsound.usable, hsound.saving⟩
  | @wrotePeers app count rest disk happ hadvance hrest =>
      have hsound := hsound.of_running happ
      rw [happ] at hframe
      have hsame : disk .settings = state.disk .settings := hframe (by simp [touched])
      exact ⟨(loadSettings_congr hsame true).trans hsound.stored, hsound.usable,
        hsound.saving⟩
  | @savedPeers app count keys store disk happ hnode hadvance =>
      have hsound := hsound.of_running happ
      rw [happ] at hframe
      have hsame : disk .settings = state.disk .settings := hframe (by simp [touched])
      exact ⟨(loadSettings_congr hsame true).trans hsound.stored, hsound.usable,
        hsound.saving⟩
  | failedPeers happ =>
      have hsound := hsound.of_running happ
      exact ⟨hsound.stored, hsound.usable, hsound.saving⟩
  | @setMode app mode happ hidle =>
      have hsound := hsound.of_running happ
      have hstored := hsound.stored
      rw [RunningApp.savedSettings_of_idle hidle] at hstored
      refine ⟨hstored, hsound.usable, fun saving hsaving => ?_⟩
      obtain rfl := Option.some.inj hsaving
      exact hsound.usable
  | @setUrl app input url happ hidle hvalid =>
      have hsound := hsound.of_running happ
      have hstored := hsound.stored
      rw [RunningApp.savedSettings_of_idle hidle] at hstored
      refine ⟨hstored, hsound.usable, fun saving hsaving => ?_⟩
      obtain rfl := Option.some.inj hsaving
      exact .inr ⟨url, validateRelayUrl_of_ok hvalid⟩
  | @wroteSettings app count settings writing rest disk happ hsaving hadvance =>
      have hsound := hsound.of_running happ
      rw [Shaped, happ] at hshaped
      have husable := hsound.saving _ hsaving
      have hleft : writing ≠ [] := by
        rintro rfl
        cases hadvance
      have hstored := hsound.stored
      rw [RunningApp.savedSettings_of_left hsaving hleft] at hstored
      refine ⟨?_, hsound.usable, fun saving hnext => ?_⟩
      · obtain hnext | ⟨rfl, hwritten⟩ :=
          ((hshaped.2 _ hsaving).resolve_left hleft).advance (by decide) hadvance
        · obtain ⟨hreplaces, hsame⟩ := hnext
          rw [RunningApp.savedSettings_of_left rfl hreplaces.ne_nil]
          exact (loadSettings_congr hsame true).trans hstored
        · exact loadSettings_of_usable (hlossless _) husable hwritten
      · obtain rfl := Option.some.inj hnext
        exact husable
  | @failedSettings app settings writing happ hsaving hleft =>
      have hsound := hsound.of_running happ
      have hstored := hsound.stored
      rw [RunningApp.savedSettings_of_left hsaving hleft] at hstored
      exact ⟨hstored, hsound.usable, by simp⟩
  | @endedSettings app settings happ hsaving =>
      have hsound := hsound.of_running happ
      have hstored := hsound.stored
      rw [RunningApp.savedSettings, hsaving] at hstored
      exact ⟨hstored, hsound.saving _ hsaving, by simp⟩
  | _ => trivial

/-- These settings are in the file, and no others are used or saved. -/
structure HasSettings (urls : UrlFormat) (json : Json) (settings : Settings)
    (state : Installation) : Prop where
  stored : loadSettings urls json state.disk true = settings
  used : state.WhileRunning fun app =>
    app.settings = settings ∧ app.savingSettings = none

/-- The settings are found, and nobody changes them. -/
def LeavesSettings : Action → Prop
  | .start _ readable => readable = true
  | .setConnectionMode _ => False
  | .setRelayUrl _ => False
  | _ => True

theorem HasSettings.step {settings : Settings}
    (hsettings : HasSettings urls json settings state)
    (hshaped : Shaped format json state) (hleaves : LeavesSettings action)
    (hstepped : Stepped format urls json state action next) :
    HasSettings urls json settings next := by
  have hframe := @Shaped.frame format urls json state next action hshaped hstepped
  have hsame : StoredFile.settings ∉ touched state.app action →
      loadSettings urls json next.disk true = settings := fun hname =>
    (loadSettings_congr (hframe hname) true).trans hsettings.stored
  cases hstepped with
  | refused => exact hsettings
  | setMode => exact hleaves.elim
  | setUrl => exact hleaves.elim
  | @started starts readable device keys happ =>
      obtain rfl : readable = true := hleaves
      refine ⟨hsettings.stored, Eq.trans ?_ hsettings.stored, ?_⟩
      · exact settings_started ..
      · exact savingSettings_started ..
  | changedPeers store happ hnode hidle =>
      have hused := hsettings.used.of_running happ
      exact ⟨hsettings.stored, hused⟩
  | failedPeers happ =>
      have hused := hsettings.used.of_running happ
      exact ⟨hsettings.stored, hused⟩
  | wrotePeers happ hadvance hrest =>
      have hused := hsettings.used.of_running happ
      exact ⟨hsame (by simp [happ, touched]), hused⟩
  | savedPeers happ hnode hadvance =>
      have hused := hsettings.used.of_running happ
      exact ⟨hsame (by simp [happ, touched]), hused⟩
  | wroteSettings happ hsaving hadvance =>
      exact absurd (hsaving.symm.trans (hsettings.used.of_running happ).2)
        (Option.some_ne_none _)
  | failedSettings happ hsaving hleft =>
      exact absurd (hsaving.symm.trans (hsettings.used.of_running happ).2)
        (Option.some_ne_none _)
  | endedSettings happ hsaving =>
      exact absurd (hsaving.symm.trans (hsettings.used.of_running happ).2)
        (Option.some_ne_none _)
  | wroteName happ hadvance => exact ⟨hsame (by simp [happ, touched]), trivial⟩
  | wroteKeys happ hadvance => exact ⟨hsame (by simp [happ, touched]), trivial⟩
  | _ => exact ⟨hsettings.stored, trivial⟩

variable {first middle final : Installation} {front back : List Action}

/-- Whenever the app is stopped, also while it saves, the settings that it finds
later are the ones that were saved last, whoever else stops it until then. -/
theorem settings_after_restart
    (hlossless : ∀ settings,
      json.readSettings (json.settings settings) = some settings)
    {disk : Stored} {app later : RunningApp}
    (hfinds : ∀ action ∈ front, FindsSettings action)
    (hfront : (machine format urls json).run (installed format json disk) front =
      some middle)
    (happ : middle.app = .running app)
    (hleaves : ∀ action ∈ back, LeavesSettings action)
    (hback : (machine format urls json).run middle (.stop :: back) = some final)
    (hlater : final.app = .running later) :
    later.settings = app.savedSettings := by
  have hfirst : (installed format json disk).SettingsSound urls json := trivial
  obtain ⟨hsound, hshaped⟩ : middle.SettingsSound urls json ∧
      Shaped format json middle :=
    run_of_shaped (fun hsound hshaped hfinds hstepped =>
      hsound.step hlossless hshaped hfinds hstepped) hfirst
        (shaped_installed disk) hfinds hfront
  obtain ⟨stopped, hstop, hrest⟩ := Option.bind_eq_some_iff.mp hback
  obtain rfl := Option.some.inj hstop
  have hstored := (hsound.of_running happ).stored
  have hstopped : HasSettings urls json app.savedSettings
      { middle with app := .off } := ⟨hstored, trivial⟩
  have hfinal : HasSettings urls json app.savedSettings final ∧
      Shaped format json final :=
    run_of_shaped (fun hsettings hshaped hleaves hstepped =>
      hsettings.step hshaped hleaves hstepped) hstopped trivial hleaves hrest
  exact (hfinal.1.used.of_running hlater).1

/-- The second save of the settings is cut short. -/
def stoppedWhileSaving : List Action :=
  [.launch true ⟨1⟩, .failWrite, .loadKeys true (.ok ⟨5, 5⟩), .write 0, .write 32,
    .write 32, .endWrite, .start true true, .setConnectionMode .relay,
    .writeSettings 0, .writeSettings 200, .writeSettings 0, .endSettings,
    .changePeers ⟨[bedroom], []⟩, .writePeers 0, .writePeers 500, .writePeers 0,
    .setRelayUrl "https://relay.example.com", .writeSettings 0, .writeSettings 9]

def launchedAgain : List Action :=
  [.launch true ⟨2⟩, .failWrite, .loadKeys true (.error "no keys"), .start true true]

theorem exists_stoppedWhileSaving :
    let machine := machine hyphenatedFormat exampleUrls exampleJson
    let first := installed hyphenatedFormat exampleJson fun _ => none
    ∃ middle ∈ machine.run first stoppedWhileSaving,
      ∃ final ∈ machine.run middle (.stop :: launchedAgain),
        (∃ app ∈ middle.runningApp,
          app.savedSettings = ⟨.relay, defaultRelayUrl⟩ ∧ app.saved = true) ∧
        middle.kept = ⟨[bedroom], []⟩ ∧
        ∃ later ∈ final.runningApp,
          later.node = some (⟨5, 5⟩, ⟨[bedroom], []⟩) := by
  intro machine first
  decide +kernel

theorem settings_after_restart_stoppedWhileSaving :
    let machine := machine hyphenatedFormat exampleUrls exampleJson
    ∃ middle final app later,
      machine.run (installed hyphenatedFormat exampleJson fun _ => none)
        stoppedWhileSaving = some middle ∧
      machine.run middle (.stop :: launchedAgain) = some final ∧
      middle.app = .running app ∧ final.app = .running later ∧
      app.savedSettings = ⟨.relay, defaultRelayUrl⟩ ∧
      later.settings = app.savedSettings := by
  intro machine
  obtain ⟨middle, hfront, final, hback, ⟨app, happ, hsaved, -⟩, -, later, hlater, -⟩ :=
    exists_stoppedWhileSaving
  have hfinds : ∀ action ∈ stoppedWhileSaving, FindsSettings action := by
    simp [stoppedWhileSaving, FindsSettings]
  have hleaves : ∀ action ∈ launchedAgain, LeavesSettings action := by
    simp [launchedAgain, LeavesSettings]
  have hrunning := app_of_runningApp happ
  have hfinal := app_of_runningApp hlater
  exact ⟨middle, final, app, later, hfront, hback, hrunning, hfinal, hsaved,
    settings_after_restart exampleJson_settings hfinds hfront hrunning hleaves
      hback hfinal⟩

/-! ## The paired devices -/

variable (format json) in
/-- The file of these paired devices is read as it was written. -/
def ReadsBack (store : PeerStore) : Prop :=
  json.readPeers (json.peers (store.file format)) = some (store.file format)

theorem loadPeers_congr {disk other : Stored} (hsame : other .peers = disk .peers) :
    loadPeers format json other = loadPeers format json disk := by
  rw [loadPeers, loadPeers, hsame]

theorem loadPeers_of_readsBack (hformat : format.Hyphenated) {store : PeerStore}
    (hread : ReadsBack format json store) {disk : Stored}
    (hdisk : disk .peers = some (json.peers (store.file format))) :
    loadPeers format json disk = store := by
  rw [loadPeers, hdisk]
  dsimp only
  rw [hread, Option.bind_some, parse_file hformat, Option.getD_some]

theorem node_started (disk : Stored) (device : DeviceId) (keys : Option Keys)
    (starts readable : Bool) :
    ∀ node ∈ (started format urls json disk device keys starts readable).node,
      node.2 = loadPeers format json disk := by
  intro node hnode
  rw [started] at hnode
  cases starts with
  | false => cases hnode
  | true =>
      obtain ⟨keys, -, rfl⟩ := Option.map_eq_some_iff.mp hnode
      rfl

variable (format json) in
/-- What is saved is what is in use, unless that has changed since. -/
structure KeepsPeers (kept : PeerStore) (app : RunningApp) : Prop where
  saved : app.saved = true → ∀ node ∈ app.node, node.2 = kept
  saving : app.savingPeers ≠ [] → ∀ node ∈ app.node, ReadsBack format json node.2

variable (format json) in
structure PeersSound (state : Installation) : Prop where
  stored : loadPeers format json state.disk = state.kept
  used : state.WhileRunning (KeepsPeers format json state.kept)

variable (format json) in
def SavesReadable : Action → Prop
  | .changePeers store => ReadsBack format json store
  | _ => True

theorem PeersSound.step (hformat : format.Hyphenated)
    (hsound : state.PeersSound format json) (hshaped : Shaped format json state)
    (hreadable : SavesReadable format json action)
    (hstepped : Stepped format urls json state action next) :
    next.PeersSound format json := by
  have hframe := @Shaped.frame format urls json state next action hshaped hstepped
  have hsame : StoredFile.peers ∉ touched state.app action →
      loadPeers format json next.disk = state.kept := fun hname =>
    (loadPeers_congr (hframe hname)).trans hsound.stored
  cases hstepped with
  | refused => exact hsound
  | @started starts readable device keys happ =>
      refine ⟨hsound.stored, fun _ node hnode => ?_, ?_⟩
      · exact (node_started _ _ _ _ _ node hnode).trans hsound.stored
      · rw [started]
        exact fun hsaving => absurd rfl hsaving
  | @changedPeers app keys before store happ hnode hidle =>
      refine ⟨hsound.stored, fun hsaved => absurd hsaved Bool.false_ne_true,
        fun _ node hnext => ?_⟩
      obtain rfl := Option.some.inj hnext
      exact hreadable
  | @wrotePeers app count rest disk happ hadvance hrest =>
      have hused := hsound.used.of_running happ
      rw [Shaped, happ] at hshaped
      obtain hidle | ⟨keys, store, hnode, hreplaces⟩ := hshaped.1
      · rw [hidle] at hadvance
        cases hadvance
      · obtain ⟨-, hpeers⟩ | ⟨hdone, -⟩ := hreplaces.advance (by decide) hadvance
        · exact ⟨(loadPeers_congr hpeers).trans hsound.stored, hused.saved,
            fun _ => hused.saving hreplaces.ne_nil⟩
        · exact absurd hdone hrest
  | @savedPeers app count keys store disk happ hnode hadvance =>
      have hused := hsound.used.of_running happ
      rw [Shaped, happ] at hshaped
      obtain hidle | ⟨others, other, hother, hreplaces⟩ := hshaped.1
      · rw [hidle] at hadvance
        cases hadvance
      · obtain ⟨rfl, rfl⟩ := Prod.mk.inj (Option.some.inj (hnode.symm.trans hother))
        obtain ⟨hleft, -⟩ | ⟨-, hwritten⟩ := hreplaces.advance (by decide) hadvance
        · exact absurd rfl hleft.ne_nil
        · have hread := hused.saving hreplaces.ne_nil _ hnode
          refine ⟨loadPeers_of_readsBack hformat hread hwritten, ?_, ?_⟩
          · intro _ node hnext
            obtain rfl := Option.some.inj (hnode.symm.trans hnext)
            rfl
          · exact fun hsaving => absurd rfl hsaving
  | failedPeers happ =>
      have hused := hsound.used.of_running happ
      exact ⟨hsound.stored, hused.saved, fun hsaving => absurd rfl hsaving⟩
  | setMode mode happ hidle =>
      have hused := hsound.used.of_running happ
      exact ⟨hsound.stored, hused.saved, hused.saving⟩
  | setUrl happ hidle hvalid =>
      have hused := hsound.used.of_running happ
      exact ⟨hsound.stored, hused.saved, hused.saving⟩
  | wroteSettings happ hsaving hadvance =>
      have hused := hsound.used.of_running happ
      exact ⟨hsame (by simp [happ, touched]), hused.saved, hused.saving⟩
  | failedSettings happ hsaving hleft =>
      have hused := hsound.used.of_running happ
      exact ⟨hsound.stored, hused.saved, hused.saving⟩
  | endedSettings happ hsaving =>
      have hused := hsound.used.of_running happ
      exact ⟨hsound.stored, hused.saved, hused.saving⟩
  | wroteName happ hadvance => exact ⟨hsame (by simp [happ, touched]), trivial⟩
  | wroteKeys happ hadvance => exact ⟨hsame (by simp [happ, touched]), trivial⟩
  | _ => exact ⟨hsound.stored, trivial⟩

variable (format json) in
/-- These paired devices are in the file, and no others are used or saved. -/
structure HasPeers (store : PeerStore) (state : Installation) : Prop where
  stored : loadPeers format json state.disk = store
  used : state.WhileRunning fun app =>
    (∀ node ∈ app.node, node.2 = store) ∧ app.savingPeers = []

/-- Nobody changes the paired devices. -/
def LeavesPeers : Action → Prop
  | .changePeers _ => False
  | _ => True

theorem HasPeers.step {store : PeerStore} (hpeers : HasPeers format json store state)
    (hshaped : Shaped format json state) (hleaves : LeavesPeers action)
    (hstepped : Stepped format urls json state action next) :
    HasPeers format json store next := by
  have hframe := @Shaped.frame format urls json state next action hshaped hstepped
  have hsame : StoredFile.peers ∉ touched state.app action →
      loadPeers format json next.disk = store := fun hname =>
    (loadPeers_congr (hframe hname)).trans hpeers.stored
  cases hstepped with
  | refused => exact hpeers
  | changedPeers => exact hleaves.elim
  | @started starts readable device keys happ =>
      refine ⟨hpeers.stored, fun node hnode => ?_, ?_⟩
      · exact (node_started _ _ _ _ _ node hnode).trans hpeers.stored
      · rw [started]
  | wrotePeers happ hadvance hrest =>
      rw [(hpeers.used.of_running happ).2] at hadvance
      cases hadvance
  | savedPeers happ hnode hadvance =>
      rw [(hpeers.used.of_running happ).2] at hadvance
      cases hadvance
  | failedPeers happ =>
      have hused := hpeers.used.of_running happ
      exact ⟨hpeers.stored, hused.1, rfl⟩
  | setMode mode happ hidle =>
      have hused := hpeers.used.of_running happ
      exact ⟨hpeers.stored, hused⟩
  | setUrl happ hidle hvalid =>
      have hused := hpeers.used.of_running happ
      exact ⟨hpeers.stored, hused⟩
  | wroteSettings happ hsaving hadvance =>
      have hused := hpeers.used.of_running happ
      exact ⟨hsame (by simp [happ, touched]), hused⟩
  | failedSettings happ hsaving hleft =>
      have hused := hpeers.used.of_running happ
      exact ⟨hpeers.stored, hused⟩
  | endedSettings happ hsaving =>
      have hused := hpeers.used.of_running happ
      exact ⟨hpeers.stored, hused⟩
  | wroteName happ hadvance => exact ⟨hsame (by simp [happ, touched]), trivial⟩
  | wroteKeys happ hadvance => exact ⟨hsame (by simp [happ, touched]), trivial⟩
  | _ => exact ⟨hpeers.stored, trivial⟩

/-- Whenever the app is stopped, also while it saves, the paired devices that it
finds later are the ones that were saved last.  If it had saved its paired devices
as they were, it finds just these. -/
theorem peers_after_restart (hformat : format.Hyphenated) {disk : Stored}
    {app later : RunningApp}
    (hreadable : ∀ action ∈ front, SavesReadable format json action)
    (hfront : (machine format urls json).run (installed format json disk) front =
      some middle)
    (happ : middle.app = .running app)
    (hleaves : ∀ action ∈ back, LeavesPeers action)
    (hback : (machine format urls json).run middle (.stop :: back) = some final)
    (hlater : final.app = .running later) :
    (∀ node ∈ later.node, node.2 = middle.kept) ∧
      (app.saved = true → ∀ node ∈ app.node, node.2 = middle.kept) := by
  have hfirst : (installed format json disk).PeersSound format json :=
    ⟨rfl, trivial⟩
  obtain ⟨hsound, hshaped⟩ : middle.PeersSound format json ∧
      Shaped format json middle :=
    run_of_shaped (fun hsound hshaped hreadable hstepped =>
      hsound.step hformat hshaped hreadable hstepped) hfirst
        (shaped_installed disk) hreadable hfront
  obtain ⟨stopped, hstop, hrest⟩ := Option.bind_eq_some_iff.mp hback
  obtain rfl := Option.some.inj hstop
  have hstopped : HasPeers format json middle.kept { middle with app := .off } :=
    ⟨hsound.stored, trivial⟩
  have hfinal : HasPeers format json middle.kept final ∧
      Shaped format json final :=
    run_of_shaped (fun hpeers hshaped hleaves hstepped =>
      hpeers.step hshaped hleaves hstepped) hstopped trivial hleaves hrest
  exact ⟨(hfinal.1.used.of_running hlater).1, (hsound.used.of_running happ).saved⟩

theorem readsBack_bedroom :
    ReadsBack hyphenatedFormat exampleJson ⟨[bedroom], []⟩ := by
  rw [ReadsBack, ← bedroomFile, exampleJson]
  dsimp only
  rw [if_pos rfl, if_pos rfl]

theorem peers_after_restart_stoppedWhileSaving :
    let machine := machine hyphenatedFormat exampleUrls exampleJson
    ∃ middle final app later,
      machine.run (installed hyphenatedFormat exampleJson fun _ => none)
        stoppedWhileSaving = some middle ∧
      machine.run middle (.stop :: launchedAgain) = some final ∧
      middle.app = .running app ∧ final.app = .running later ∧
      (middle.kept = ⟨[bedroom], []⟩ ∧ app.saved = true ∧
        later.node = some (⟨5, 5⟩, ⟨[bedroom], []⟩)) ∧
      (∀ node ∈ later.node, node.2 = middle.kept) ∧
      (app.saved = true → ∀ node ∈ app.node, node.2 = middle.kept) := by
  intro machine
  obtain ⟨middle, hfront, final, hback, ⟨app, happ, -, hsaved⟩, hkept, later, hlater,
    hnode⟩ := exists_stoppedWhileSaving
  have hreadable : ∀ action ∈ stoppedWhileSaving,
      SavesReadable hyphenatedFormat exampleJson action := by
    simp [stoppedWhileSaving, SavesReadable, readsBack_bedroom]
  have hleaves : ∀ action ∈ launchedAgain, LeavesPeers action := by
    simp [launchedAgain, LeavesPeers]
  have hrunning := app_of_runningApp happ
  have hfinal := app_of_runningApp hlater
  exact ⟨middle, final, app, later, hfront, hback, hrunning, hfinal,
    ⟨hkept, hsaved, hnode⟩,
    peers_after_restart hyphenatedFormat_hyphenated hreadable hfront hrunning hleaves
      hback hfinal⟩

end Installation

end Cled.Desktop
