import ItalyTrip.CaptureTime
import ItalyTrip.Component
import ItalyTrip.PhotoQueue

namespace ItalyTrip

/-- What the capture reads of a video element. -/
structure Video where
  videoWidth : Nat
  videoHeight : Nat
  readyState : Nat

structure CaptureResult where
  blob : Blob
  width : Nat
  height : Nat
  takenAt : String
  deriving DecidableEq, Repr

namespace Capture

/-- What a shot fails with: a `CaptureError` with its message, or some other error. -/
inductive ShotError where
  | captureError (message : String)
  | other
  deriving DecidableEq, Repr

def haveCurrentData : Nat := 2

def frameSize (video : Video) : Except ShotError (Nat × Nat) :=
  if video.videoWidth = 0 ∨ video.videoHeight = 0 then
    .error (.captureError ("camera is not ready yet (frame is " ++ toString video.videoWidth ++ "x" ++
      toString video.videoHeight ++ ")"))
  else if video.readyState < haveCurrentData then
    .error (.captureError "camera is not ready yet (no frame available)")
  else .ok (video.videoWidth, video.videoHeight)

/-- The canvas of a shot: whether it has a context, and whether drawing on it goes well. -/
structure Canvas where
  context : Bool
  draws : Bool

/-- What `captureFrame` does before it waits. -/
def draw (video : Video) (canvas : Canvas) : Except ShotError (Nat × Nat) := do
  let size ← frameSize video
  if !canvas.context then throw (.captureError "could not get a 2d drawing context")
  if !canvas.draws then throw .other
  return size

/-- What comes of `toBlob`: an image or `null`, or what it threw. -/
inductive Encoded where
  | blob (blob : Option Blob)
  | threw (isError : Bool) (text : String)

def encode (size : Nat × Nat) (encoded : Encoded) (now : Date) : Except ShotError CaptureResult :=
  match encoded with
  | .blob (some blob) =>
    if blob.bytes.length = 0 then .error (.captureError "the browser produced an empty image")
    else .ok ⟨blob, size.1, size.2, toRfc3339 now⟩
  | .blob none => .error (.captureError "the browser produced an empty image")
  | .threw isError text => .error (if isError then .other else .captureError text)

/-- No capture is blank. -/
structure Taken (capture : CaptureResult) : Prop where
  width : 0 < capture.width
  height : 0 < capture.height
  blob : capture.blob.bytes ≠ []

theorem draw_size {video : Video} {canvas : Canvas} {size : Nat × Nat} (h : draw video canvas = .ok size) :
    0 < size.1 ∧ 0 < size.2 := by
  have framed : frameSize video = .ok size := by
    unfold draw at h
    obtain ⟨_, framed, h⟩ := Calls.except_bind_ok h
    split at h <;> split at h <;> cases h
    exact framed
  unfold frameSize at framed
  split at framed
  · cases framed
  · split at framed
    · cases framed
    · cases framed
      dsimp only
      omega

theorem encode_taken {size : Nat × Nat} (hsize : 0 < size.1 ∧ 0 < size.2) {encoded : Encoded} {now : Date}
    {capture : CaptureResult} (h : encode size encoded now = .ok capture) : Taken capture := by
  unfold encode at h
  split at h
  · split at h
    · cases h
    next filled =>
      cases h
      exact ⟨hsize.1, hsize.2, fun empty => filled (congrArg List.length empty)⟩
  · cases h
  · cases h

end Capture

/-- Which way the camera points. -/
inductive Facing where
  | user
  | environment
  deriving DecidableEq, Repr

namespace Facing

def text : Facing → String
  | user => "user"
  | environment => "environment"

def defaultFacing : Facing := environment

/-- `stored` is the item of the storage, `none` where there is none or the storage throws. -/
def readFacing (stored : Option String) : Facing :=
  match stored with
  | some "user" => user
  | some "environment" => environment
  | _ => defaultFacing

def other : Facing → Facing
  | user => environment
  | environment => user

theorem readFacing_text (facing : Facing) : readFacing (some facing.text) = facing := by
  cases facing <;> rfl

end Facing

/-- `kinds` are those of the devices, `none` for every failure. -/
def hasMultipleCameras (kinds : Option (List String)) : Bool :=
  match kinds with
  | some kinds => decide (1 < (kinds.filter (· = "videoinput")).length)
  | none => false

/-- An error of `getUserMedia`. -/
inductive MediaError where
  | text (error : String)
  | exception (name message : String)

def MediaError.name : MediaError → String
  | .text error => error
  | .exception name _ => name

def MediaError.message : MediaError → String
  | .text error => error
  | .exception name message => name ++ ": " ++ message

namespace CameraView

/-- Object URLs are numbered in the order they are made. -/
inductive Phase where
  | checking
  | unsupported
  | denied
  | error (message : String)
  | live
  | review (capture : CaptureResult) (previewUrl : Nat)
  deriving DecidableEq, Repr

def Phase.previewUrl : Phase → Option Nat
  | .review _ url => some url
  | _ => none

structure Screen where
  phase : Phase
  busy : Bool
  facing : Facing
  canFlip : Bool
  switching : Bool
  facingBeforeSwitch : Facing
  streamKey : Nat
  deriving DecidableEq, Repr

/-- The first render, and what the effect of mounting makes of it. -/
def initial (apiAvailable : Bool) (stored : Facing) : Screen :=
  if apiAvailable then ⟨.live, false, stored, false, false, stored, 0⟩
  else ⟨.unsupported, false, .defaultFacing, false, false, .defaultFacing, 0⟩

/-- The effect that revokes the URL of a review. -/
def preview : Components.Effect Screen Phase Nat := ⟨Screen.phase, fun _ phase => phase.previewUrl⟩

/-- A shot on its way: the screen that took it, and what it drew. -/
structure Shot where
  screen : Nat
  drawn : Except Capture.ShotError (Nat × Nat)

/-- The page of the camera. The screen that is mounted is number `mounts`; `left` has the fallbacks of the
screens that were left. `late` has the URLs made for screens that had been left, and
`captured` the captures that came to a review. -/
structure Page where
  site : Components.Site Screen Nat
  mounts : Nat
  shots : List Shot
  probes : List Nat
  left : List Facing
  stored : Option String
  made : Nat
  late : List Nat
  captured : List CaptureResult
  confirmed : List CaptureResult

def Page.start (stored : Option String) : Page := ⟨.empty, 0, [], [], [], stored, 0, [], [], []⟩

/-- What happens to the page. `written` tells whether the storage takes what is written, `closure` is what the
handler of a video that reports an error saw of `switching` when it was last rendered. -/
inductive Event where
  | mount (apiAvailable : Bool) (readable : Bool)
  | unmount
  | visible (trackLive : Bool)
  | userMedia
  | probed (i : Nat) (kinds : Option (List String))
  | userMediaError (closure : Bool) (error : MediaError) (written : Bool)
  | lateError (i : Nat) (written : Bool)
  | flip (written : Bool)
  | shoot (video : Option Video) (canvas : Capture.Canvas)
  | settled (i : Nat) (encoded : Capture.Encoded) (now : Date)
  | retake
  | confirm
  | tryAgain

namespace Page

def render (p : Page) (s : Screen) : Page := { p with site := preview.commit p.site (some s) }

def writeFacing (p : Page) (written : Bool) (facing : Facing) : Page :=
  { p with stored := if written then some facing.text else p.stored }

def handleUserMedia (p : Page) (s : Screen) : Page :=
  let p := if s.canFlip then p else { p with probes := p.probes ++ [p.mounts] }
  p.render { s with switching := false }

def handleUserMediaError (p : Page) (s : Screen) (closure : Bool) (error : MediaError) (written : Bool) :
    Page :=
  if closure then
    let previous := s.facingBeforeSwitch
    (p.render { s with switching := false, facing := previous }).writeFacing written previous
  else if error.name ∈ ["NotAllowedError", "PermissionDeniedError", "SecurityError"] then
    p.render { s with phase := .denied }
  else p.render { s with phase := .error error.message }

/-- The button is there in the live phase if the camera can flip, and not disabled unless it switches. -/
def flip (p : Page) (s : Screen) (written : Bool) : Page :=
  if s.phase = .live ∧ s.canFlip ∧ ¬ s.switching ∧ ¬ s.busy then
    let next := s.facing.other
    (p.writeFacing written next).render
      { s with facingBeforeSwitch := s.facing, facing := next, switching := true }
  else p

/-- The shutter is there in the live phase, and disabled while the screen is busy or switches. -/
def shoot (p : Page) (s : Screen) (video : Option Video) (canvas : Capture.Canvas) : Page :=
  match video with
  | some video =>
    if s.phase = .live ∧ ¬ s.busy ∧ ¬ s.switching then
      render { p with shots := p.shots ++ [⟨p.mounts, Capture.draw video canvas⟩] } { s with busy := true }
    else p
  | none => p

/-- The rest of `shoot`. A screen that was left is not rendered again, yet the URL is made. -/
def settled (p : Page) (shot : Shot) (encoded : Capture.Encoded) (now : Date) : Page :=
  match shot.drawn >>= fun size => Capture.encode size encoded now, p.site.screen with
  | .ok capture, some s =>
    if shot.screen = p.mounts then
      render { p with made := p.made + 1, captured := p.captured ++ [capture] }
        { s with phase := .review capture p.made, busy := false }
    else { p with made := p.made + 1, late := p.made :: p.late }
  | .ok _, none => { p with made := p.made + 1, late := p.made :: p.late }
  | .error error, some s =>
    if shot.screen = p.mounts then
      let message := match error with
        | .captureError message => message
        | .other => "could not take the photo"
      p.render { s with phase := .error message, busy := false }
    else p
  | .error _, none => p

def confirm (p : Page) (s : Screen) : Page :=
  match s.phase with
  | .review capture _ =>
    render { p with confirmed := p.confirmed ++ [capture] } { s with phase := .live }
  | _ => p

def tryAgain (p : Page) (s : Screen) : Page :=
  match s.phase with
  | .denied | .error _ => p.render { s with streamKey := s.streamKey + 1, phase := .live }
  | _ => p

/-- What the events of the mounted screen do. -/
def stepScreen (p : Page) (s : Screen) : Event → Page
  | .unmount =>
    { p with
      site := preview.commit p.site none
      left := s.facingBeforeSwitch :: p.left }
  | .visible trackLive => if trackLive then p else p.render { s with streamKey := s.streamKey + 1 }
  | .userMedia => p.handleUserMedia s
  | .userMediaError closure error written => p.handleUserMediaError s closure error written
  | .flip written => p.flip s written
  | .shoot video canvas => p.shoot s video canvas
  | .retake => match s.phase with
    | .review _ _ => p.render { s with phase := .live }
    | _ => p
  | .confirm => p.confirm s
  | .tryAgain => p.tryAgain s
  | _ => p

def step (p : Page) (event : Event) : Page :=
  match event, p.site.screen with
  | .mount apiAvailable readable, none =>
    { p with
      mounts := p.mounts + 1
      site := preview.commit p.site
        (some (initial apiAvailable (Facing.readFacing (if readable then p.stored else none)))) }
  | .probed i kinds, screen =>
    match p.probes[i]?, screen with
    | some n, some s =>
      let p := { p with probes := p.probes.eraseIdx i }
      if n = p.mounts then p.render { s with canFlip := hasMultipleCameras kinds } else p
    | _, _ => { p with probes := p.probes.eraseIdx i }
  | .lateError i written, _ =>
    match p.left[i]? with
    | some previous => writeFacing { p with left := p.left.eraseIdx i } written previous
    | none => p
  | .settled i encoded now, _ =>
    match p.shots[i]? with
    | some shot => settled { p with shots := p.shots.eraseIdx i } shot encoded now
    | none => p
  | event, some s => p.stepScreen s event
  | _, none => p

def run (stored : Option String) (events : List Event) : Page := events.foldl step (start stored)

/-- The preview that is shown. -/
def shown (p : Page) : Option Nat := p.site.screen.bind fun s => s.phase.previewUrl

end Page

/-- The capture that is reviewed. -/
def Screen.reviewed (s : Screen) : List CaptureResult :=
  match s.phase with
  | .review capture _ => [capture]
  | _ => []

theorem Screen.reviewed_of_phase {s s' : Screen} (h : s'.phase = s.phase ∨ s'.phase.previewUrl = none) :
    s'.reviewed.Sublist s.reviewed := by
  unfold reviewed
  obtain same | none := h
  · rw [same]
  · cases hphase : s'.phase with
    | review capture url => simp [hphase, Phase.previewUrl] at none
    | _ => exact List.nil_sublist _

/-- What holds of the page whatever it shows. -/
structure Page.Sound (p : Page) : Prop where
  holds : preview.Holds p.site
  previews : (p.site.ever ++ p.late).Perm (List.range p.made)
  older : ∀ shot ∈ p.shots, shot.screen ≤ p.mounts
  drawn : ∀ shot ∈ p.shots, ∀ size, shot.drawn = .ok size → 0 < size.1 ∧ 0 < size.2
  past : p.confirmed.Sublist p.captured
  taken : ∀ capture ∈ p.captured, Capture.Taken capture

/-- What a screen of the page agrees with. -/
structure Page.Fits (p : Page) (s : Screen) : Prop where
  shots : p.shots.countP (fun shot => shot.screen = p.mounts) = if s.busy then 1 else 0
  apart : s.busy = true → s.switching = false
  kept : (p.confirmed ++ s.reviewed).Sublist p.captured

structure Page.Good (p : Page) : Prop extends p.Sound where
  fits : ∀ s, p.site.screen = some s → p.Fits s

namespace Page

variable {p : Page} {s s' : Screen}

@[simp] theorem render_screen : (p.render s).site.screen = some s := Components.Effect.commit_screen

theorem Sound.site_taken (sound : p.Sound) : p.site.taken = p.shown := sound.holds

/-- A URL that is yet to be made is not shown. -/
theorem Sound.fresh (sound : p.Sound) (hs : p.site.screen = some s) : s.phase.previewUrl ≠ some p.made := by
  intro h
  have shown : p.site.taken = some p.made := by
    rw [sound.site_taken, Page.shown, hs]
    exact h
  have ever : p.made ∈ p.site.ever ++ p.late := by simp [Components.Site.ever, shown]
  exact Nat.lt_irrefl _ (List.mem_range.mp (sound.previews.mem_iff.mp ever))

/-- A page that shows no new preview. -/
theorem Sound.commit (sound : p.Sound) {screen : Option Screen}
    (idle : screen.map Screen.phase = p.site.screen.map Screen.phase ∨
      ∀ s, screen = some s → s.phase.previewUrl = none)
    (fits : ∀ s, screen = some s → p.Fits s) : Good { p with site := preview.commit p.site screen } where
  holds := sound.holds.commit
  previews := by
    have idle : (preview.commit p.site screen).ever = p.site.ever := by
      refine Components.Effect.commit_idle (idle.imp_right fun none => ?_)
      cases screen with
      | none => rfl
      | some s => exact none s rfl
    exact idle.symm ▸ sound.previews
  older := sound.older
  drawn := sound.drawn
  past := sound.past
  taken := sound.taken
  fits s hs := by
    obtain ⟨shots, apart, kept⟩ := fits s (Components.Effect.commit_screen.symm.trans hs)
    exact ⟨shots, apart, kept⟩

theorem Sound.render (sound : p.Sound) (hs : p.site.screen = some s)
    (phase : s'.phase = s.phase ∨ s'.phase.previewUrl = none) (fits : p.Fits s') : (p.render s').Good := by
  refine sound.commit ?_ fun t ht => Option.some.inj ht ▸ fits
  rw [hs]
  exact phase.imp (congrArg some) fun none t ht => Option.some.inj ht ▸ none

theorem Fits.phase (fits : p.Fits s) {phase : Phase} (idle : phase.previewUrl = none) :
    p.Fits { s with phase := phase } where
  shots := fits.shots
  apart := fits.apart
  kept := ((List.Sublist.refl _).append (Screen.reviewed_of_phase (Or.inr idle))).trans fits.kept

theorem Good.handleUserMedia (good : p.Good) (hs : p.site.screen = some s) : (p.handleUserMedia s).Good := by
  have fits := good.fits s hs
  unfold Page.handleUserMedia
  split
  · exact good.toSound.render hs (Or.inl rfl) ⟨fits.shots, fun _ => rfl, fits.kept⟩
  · have sound : Sound { p with probes := p.probes ++ [p.mounts] } := { good.toSound with }
    exact sound.render hs (Or.inl rfl) ⟨fits.shots, fun _ => rfl, fits.kept⟩

theorem Good.writeFacing (good : p.Good) {written : Bool} {facing : Facing} :
    (p.writeFacing written facing).Good where
  toSound := { good.toSound with }
  fits s hs := { good.fits s hs with }

theorem Good.handleUserMediaError (good : p.Good) (hs : p.site.screen = some s) {closure : Bool}
    {error : MediaError} {written : Bool} : (p.handleUserMediaError s closure error written).Good := by
  have fits := good.fits s hs
  unfold Page.handleUserMediaError
  split
  · refine Good.writeFacing ?_
    exact good.toSound.render hs (Or.inl rfl) ⟨fits.shots, fun _ => rfl, fits.kept⟩
  · split
    · exact good.toSound.render hs (Or.inr rfl) (fits.phase rfl)
    · exact good.toSound.render hs (Or.inr rfl) (fits.phase rfl)

theorem Good.flip (good : p.Good) (hs : p.site.screen = some s) {written : Bool} :
    (p.flip s written).Good := by
  unfold Page.flip
  split
  next ready =>
    obtain ⟨-, -, -, idle⟩ := ready
    have fits : (p.writeFacing written s.facing.other).Fits s := good.writeFacing.fits s hs
    exact good.writeFacing.toSound.render hs (Or.inl rfl)
      ⟨fits.shots, fun busy => absurd busy idle, fits.kept⟩
  next => exact good

theorem Good.shoot (good : p.Good) (hs : p.site.screen = some s) {video : Option Video}
    {canvas : Capture.Canvas} : (p.shoot s video canvas).Good := by
  unfold Page.shoot
  split
  next video =>
    split
    next ready =>
      obtain ⟨-, idle, still⟩ := ready
      have fits := good.fits s hs
      have sound : Sound { p with shots := p.shots ++ [⟨p.mounts, Capture.draw video canvas⟩] } :=
        { good.toSound with
          older := by
            intro shot hshot
            obtain older | rfl := List.mem_append.mp hshot |>.imp_right List.mem_singleton.mp
            · exact good.older shot older
            · exact Nat.le_refl _
          drawn := by
            intro shot hshot size hsize
            obtain older | rfl := List.mem_append.mp hshot |>.imp_right List.mem_singleton.mp
            · exact good.drawn shot older size hsize
            · exact Capture.draw_size hsize }
      refine sound.render hs (Or.inl rfl) ⟨?_, fun _ => Bool.eq_false_iff.mpr still, fits.kept⟩
      have none := fits.shots
      rw [if_neg idle] at none
      simp [none]
    next => exact good
  next => exact good

theorem Good.confirm (good : p.Good) (hs : p.site.screen = some s) : (p.confirm s).Good := by
  have fits := good.fits s hs
  unfold Page.confirm
  split
  next capture url review =>
    have kept : (p.confirmed ++ [capture]).Sublist p.captured := by
      have kept := fits.kept
      rwa [Screen.reviewed, review] at kept
    have sound : Sound { p with confirmed := p.confirmed ++ [capture] } := { good.toSound with past := kept }
    refine sound.render hs (Or.inr rfl) ⟨fits.shots, fits.apart, ?_⟩
    rw [Screen.reviewed, List.append_nil]
    exact kept
  next => exact good

theorem range_succ_perm {n : Nat} {urls : List Nat} (h : urls.Perm (List.range n)) :
    (n :: urls).Perm (List.range (n + 1)) := by
  rw [List.range_succ]
  exact (h.cons n).trans (List.perm_append_singleton n _).symm

/-- The page without a shot that settles. -/
theorem Sound.take (sound : p.Sound) {i : Nat} : Sound { p with shots := p.shots.eraseIdx i } :=
  { sound with
    older := fun shot hshot => sound.older shot ((List.eraseIdx_sublist _ _).subset hshot)
    drawn := fun shot hshot => sound.drawn shot ((List.eraseIdx_sublist _ _).subset hshot) }

/-- Only a shot of the mounted screen frees its shutter. -/
theorem Fits.take (fits : p.Fits s) {i : Nat} {shot : Shot} (hi : p.shots[i]? = some shot) :
    (if shot.screen = p.mounts then 1 else 0) +
      (p.shots.eraseIdx i).countP (fun shot => shot.screen = p.mounts) = if s.busy then 1 else 0 := by
  rw [← fits.shots, ← (List.getElem_cons_eraseIdx_perm (List.getElem?_eq_some_iff.mp hi).1).countP_eq,
    List.countP_cons, (List.getElem?_eq_some_iff.mp hi).2]
  split <;> simp_all [Nat.add_comm]

theorem Good.review (good : p.Good) (hs : p.site.screen = some s) {i : Nat} {shot : Shot}
    (hi : p.shots[i]? = some shot) (own : shot.screen = p.mounts) {capture : CaptureResult}
    (taken : Capture.Taken capture) :
    (render { p with
        shots := p.shots.eraseIdx i
        made := p.made + 1
        captured := p.captured ++ [capture] }
      { s with phase := .review capture p.made, busy := false }).Good where
  holds := good.holds.commit
  previews := by
    have changed : some (Phase.review capture p.made) ≠ p.site.screen.map Screen.phase := by
      rw [hs]
      intro h
      refine good.fresh hs ?_
      rw [← Option.some.inj h]
      rfl
    have ever : (preview.commit p.site
        (some { s with phase := .review capture p.made, busy := false })).ever = p.made :: p.site.ever :=
      Components.Effect.commit_takes changed rfl
    exact ever.symm ▸ range_succ_perm good.previews
  older := good.toSound.take.older
  drawn := good.toSound.take.drawn
  past := good.past.trans (List.sublist_append_left _ _)
  taken c hc := by
    obtain before | rfl := List.mem_append.mp hc |>.imp_right List.mem_singleton.mp
    · exact good.taken c before
    · exact taken
  fits t ht := by
    obtain rfl := Option.some.inj (render_screen.symm.trans ht)
    have taken := (good.fits s hs).take hi
    rw [if_pos own] at taken
    refine ⟨?_, nofun, good.past.append (List.Sublist.refl _)⟩
    change (p.shots.eraseIdx i).countP (fun shot => shot.screen = p.mounts) = 0
    split at taken <;> omega

theorem Good.failed (good : p.Good) (hs : p.site.screen = some s) {i : Nat} {shot : Shot}
    (hi : p.shots[i]? = some shot) (own : shot.screen = p.mounts) {phase : Phase}
    (idle : phase.previewUrl = none) :
    (render { p with shots := p.shots.eraseIdx i } { s with phase := phase, busy := false }).Good := by
  have taken := (good.fits s hs).take hi
  rw [if_pos own] at taken
  refine good.toSound.take.render hs (Or.inr idle) ⟨?_, nofun, ((good.fits s hs).phase idle).kept⟩
  change (p.shots.eraseIdx i).countP (fun shot => shot.screen = p.mounts) = 0
  split at taken <;> omega

/-- A shot of a screen that was left settles. -/
theorem Good.foreign (good : p.Good) {i : Nat} {shot : Shot} (hi : p.shots[i]? = some shot)
    (other : ∀ s, p.site.screen = some s → shot.screen ≠ p.mounts) :
    Good { p with shots := p.shots.eraseIdx i } where
  toSound := good.toSound.take
  fits s hs := by
    have taken := (good.fits s hs).take hi
    rw [if_neg (other s hs), Nat.zero_add] at taken
    exact ⟨taken, (good.fits s hs).apart, (good.fits s hs).kept⟩

theorem Good.late (good : p.Good) : Good { p with made := p.made + 1, late := p.made :: p.late } where
  holds := good.holds
  previews := List.perm_middle.trans (range_succ_perm good.previews)
  older := good.older
  drawn := good.drawn
  past := good.past
  taken := good.taken
  fits s hs := { good.fits s hs with }

theorem Good.settled (good : p.Good) {i : Nat} {shot : Shot} (hi : p.shots[i]? = some shot)
    (encoded : Capture.Encoded) (now : Date) :
    (settled { p with shots := p.shots.eraseIdx i } shot encoded now).Good := by
  unfold Page.settled
  split
  next capture s hresult hs =>
    split
    next own =>
      obtain ⟨size, hsize, hencode⟩ := Calls.except_bind_ok hresult
      have drawn := good.drawn shot (List.mem_of_getElem? hi) size hsize
      exact good.review hs hi own (Capture.encode_taken drawn hencode)
    next other => exact (good.foreign hi fun _ _ => other).late
  next capture hresult hs => exact (good.foreign hi fun s h => by simp_all).late
  next error s hresult hs =>
    split
    next own => exact good.failed hs hi own rfl
    next other => exact good.foreign hi fun _ _ => other
  next hresult hs => exact good.foreign hi fun s h => by simp_all

theorem Good.mount (good : p.Good) {apiAvailable : Bool} {stored : Facing} :
    Good { p with
      mounts := p.mounts + 1
      site := preview.commit p.site (some (initial apiAvailable stored)) } := by
  have sound : Sound { p with mounts := p.mounts + 1 } :=
    { good.toSound with older := fun shot hshot => Nat.le_succ_of_le (good.older shot hshot) }
  have started : (initial apiAvailable stored).phase.previewUrl = none ∧
      (initial apiAvailable stored).busy = false ∧ (initial apiAvailable stored).reviewed = [] := by
    cases apiAvailable <;> exact ⟨rfl, rfl, rfl⟩
  obtain ⟨idle, free, none⟩ := started
  refine sound.commit (Or.inr fun s h => Option.some.inj h ▸ idle) fun s h => ?_
  obtain rfl := Option.some.inj h
  have apart : p.shots.countP (fun shot => shot.screen = p.mounts + 1) = 0 := by
    refine List.countP_eq_zero.mpr fun shot hshot => ?_
    have := good.older shot hshot
    simp only [decide_eq_true_eq]
    omega
  refine ⟨?_, fun busy => ?_, ?_⟩
  · rw [free]
    exact apart
  · rw [free] at busy
    cases busy
  · rw [none, List.append_nil]
    exact good.past

theorem Good.stepScreen (good : p.Good) (hs : p.site.screen = some s) (event : Event) :
    (p.stepScreen s event).Good := by
  have fits := good.fits s hs
  cases event with
  | unmount =>
    have left : Sound { p with left := s.facingBeforeSwitch :: p.left } := { good.toSound with }
    exact left.commit (Or.inr nofun) nofun
  | visible trackLive =>
    cases trackLive
    · exact good.toSound.render hs (Or.inl rfl) ⟨fits.shots, fits.apart, fits.kept⟩
    · exact good
  | userMedia => exact good.handleUserMedia hs
  | userMediaError closure error written => exact good.handleUserMediaError hs
  | flip written => exact good.flip hs
  | shoot video canvas => exact good.shoot hs
  | retake =>
    simp only [Page.stepScreen]
    split
    · exact good.toSound.render hs (Or.inr rfl) (fits.phase rfl)
    · exact good
  | confirm => exact good.confirm hs
  | tryAgain =>
    simp only [Page.stepScreen, Page.tryAgain]
    have live : p.Fits { s with phase := .live } := fits.phase rfl
    have again : p.Fits { s with streamKey := s.streamKey + 1, phase := .live } := { live with }
    split
    · exact good.toSound.render hs (Or.inr rfl) again
    · exact good.toSound.render hs (Or.inr rfl) again
    · exact good
  | _ => exact good

theorem Good.step (good : p.Good) (event : Event) : (p.step event).Good := by
  unfold Page.step
  split
  next => exact good.mount
  next screen i kinds =>
    have dropped : Good { p with probes := p.probes.eraseIdx i } :=
      ⟨{ good.toSound with }, fun s hs => { good.fits s hs with }⟩
    split
    next n s hn hs =>
      dsimp only
      split
      next =>
        have fits := good.fits s hs
        exact dropped.toSound.render hs (Or.inl rfl) ⟨fits.shots, fits.apart, fits.kept⟩
      next => exact dropped
    next => exact dropped
  next screen i written =>
    split
    next previous hi =>
      have dropped : Good { p with left := p.left.eraseIdx i } :=
        ⟨{ good.toSound with }, fun s hs => { good.fits s hs with }⟩
      exact dropped.writeFacing
    next => exact good
  next screen i encoded now =>
    split
    next shot hi => exact good.settled hi encoded now
    next => exact good
  next hs => exact good.stepScreen hs _
  next => exact good

theorem good_start (stored : Option String) : (start stored).Good where
  holds := Components.Effect.holds_empty
  previews := List.Perm.refl _
  older := nofun
  drawn := nofun
  past := List.Sublist.refl _
  taken := nofun
  fits := nofun

theorem run_good (stored : Option String) (events : List Event) : (run stored events).Good :=
  List.foldlRecOn events step (good_start stored) fun _ good event _ => good.step event

/-- Every preview URL is the one shown, has been revoked once, or was made for a screen that had been left. -/
theorem previews_revoked (stored : Option String) (events : List Event) :
    ((run stored events).shown.toList ++ (run stored events).site.returned ++ (run stored events).late).Perm
      (List.range (run stored events).made) := by
  have good := run_good stored events
  rw [← good.site_taken]
  exact good.previews

/-- The shutter is exclusive: one shot of the mounted screen at most is on its way, exactly while the screen is
busy, and then it does not switch. What is confirmed has been captured, in this order and no capture twice,
and no capture is blank. -/
theorem shots_exclusive (stored : Option String) (events : List Event) {s : Screen}
    (hs : (run stored events).site.screen = some s) :
    (run stored events).shots.countP (fun shot => shot.screen = (run stored events).mounts) =
        (if s.busy then 1 else 0) ∧
      (s.busy = true → s.switching = false) ∧
      ((run stored events).confirmed ++ s.reviewed).Sublist (run stored events).captured ∧
      ∀ capture ∈ (run stored events).captured, Capture.Taken capture := by
  have good := run_good stored events
  obtain ⟨shots, apart, kept⟩ := good.fits s hs
  exact ⟨shots, apart, kept, good.taken⟩

def sampleLive : List Event := [.mount true true, .userMedia, .probed 0 (some ["videoinput", "videoinput"])]

private def sampleShot : List Event :=
  sampleLive ++ [.shoot (some ⟨1920, 1080, 4⟩) ⟨true, true⟩,
    .settled 0 (.blob (some ⟨[1], "image/jpeg"⟩)) ⟨0, 0⟩, .confirm, .shoot (some ⟨1920, 1080, 4⟩) ⟨true, true⟩, .flip true]

theorem shots_exclusive_sample : ∃ s, (run none sampleShot).site.screen = some s ∧
    (run none sampleShot).shots.countP (fun shot => shot.screen = 1) = 1 ∧ s.switching = false ∧
    (run none sampleShot).confirmed.length = 1 := by
  have busy : (run none sampleShot).site.screen =
      some ⟨.live, true, .environment, true, false, .environment, 0⟩ := rfl
  obtain ⟨shots, apart, -⟩ := shots_exclusive none sampleShot busy
  exact ⟨_, busy, shots, apart rfl, rfl⟩

end Page

/-- What the screen knows of its cameras. -/
def Screen.choice (s : Screen) : Facing × Bool × Facing := (s.facing, s.switching, s.facingBeforeSwitch)

/-- The event starts or ends a screen, or bears on the camera that the screen asks for. -/
def Event.chooses : Event → Bool
  | .mount _ _ | .unmount | .userMedia | .userMediaError _ _ _ | .lateError _ _ | .flip _ => true
  | _ => false

namespace Page

variable {p q : Page} {s s' : Screen}

def choice (p : Page) : Option String × Option (Facing × Bool × Facing) :=
  (p.stored, p.site.screen.map Screen.choice)

theorem render_choice (hs : p.site.screen = some s) (same : s'.choice = s.choice) :
    (p.render s').choice = p.choice := by
  have shown : (p.render s').site.screen.map Screen.choice = p.site.screen.map Screen.choice := by
    rw [render_screen, hs]
    exact congrArg some same
  exact Prod.ext rfl shown

theorem settled_choice {shot : Shot} {encoded : Capture.Encoded} {now : Date} :
    (p.settled shot encoded now).choice = p.choice := by
  unfold Page.settled
  split
  next capture s _ hs =>
    split
    · exact render_choice hs rfl
    · rfl
  next => rfl
  next error s _ hs =>
    split
    · exact render_choice hs rfl
    · rfl
  next => rfl

theorem stepScreen_choice (hs : p.site.screen = some s) {event : Event} (keeps : event.chooses = false) :
    (p.stepScreen s event).choice = p.choice := by
  cases event with
  | visible trackLive =>
    cases trackLive
    · exact render_choice hs rfl
    · rfl
  | shoot video canvas =>
    simp only [stepScreen, shoot]
    split
    · split
      · exact render_choice hs rfl
      · rfl
    · rfl
  | retake =>
    simp only [stepScreen]
    split
    · exact render_choice hs rfl
    · rfl
  | confirm =>
    simp only [stepScreen, confirm]
    split
    · exact render_choice hs rfl
    · rfl
  | tryAgain =>
    simp only [stepScreen, tryAgain]
    split
    · exact render_choice hs rfl
    · exact render_choice hs rfl
    · rfl
  | probed i kinds => rfl
  | settled i encoded now => rfl
  | _ => cases keeps

/-- Shots, reviews, probes and a page that comes back leave the choice of the camera alone. -/
theorem step_choice {event : Event} (keeps : event.chooses = false) : (p.step event).choice = p.choice := by
  unfold Page.step
  split
  next => cases keeps
  next screen i kinds =>
    split
    next n s hn hs =>
      dsimp only
      split
      · exact render_choice hs rfl
      · rfl
    next => rfl
  next => cases keeps
  next screen i encoded now =>
    split
    · exact settled_choice
    · rfl
  next hs => exact stepScreen_choice hs keeps
  next => rfl

end Page

/-- The camera is there, and the storage gives and takes what it is asked to. A video of a screen that was left
reports no error. -/
def Event.undisturbed : Event → Bool
  | .mount apiAvailable readable => apiAvailable && readable
  | .userMediaError _ _ written => written
  | .flip written => written
  | .lateError _ _ => false
  | _ => true

namespace Page

variable {p q : Page} {s s' : Screen}

/-- The storage has the camera that the screen asks for, and a flip has the other one to fall back to. -/
structure Remembers (p : Page) (s : Screen) : Prop where
  stored : Facing.readFacing p.stored = s.facing
  fallback : s.switching = true → s.facingBeforeSwitch = s.facing.other

theorem Remembers.render (remembers : p.Remembers s) : ∀ t, (p.render s).site.screen = some t →
    (p.render s).Remembers t := by
  intro t ht
  obtain rfl := Option.some.inj (render_screen.symm.trans ht)
  exact ⟨remembers.stored, remembers.fallback⟩

theorem Remembers.of_choice (same : q.choice = p.choice)
    (remembers : ∀ s, p.site.screen = some s → p.Remembers s) :
    ∀ t, q.site.screen = some t → q.Remembers t := by
  obtain ⟨stored, screen⟩ := Prod.mk.inj same
  intro t ht
  rw [ht] at screen
  obtain ⟨s, hs, choice⟩ := Option.map_eq_some_iff.mp screen.symm
  obtain ⟨facing, rest⟩ := Prod.mk.inj choice
  obtain ⟨switching, fallback⟩ := Prod.mk.inj rest
  have remembered := remembers s hs
  exact ⟨by rw [stored, remembered.stored, facing],
    fun flips => by rw [← fallback, ← facing]; exact remembered.fallback (switching.trans flips)⟩

theorem Remembers.stepScreen (remembers : p.Remembers s) (hs : p.site.screen = some s) {event : Event}
    (undisturbed : event.undisturbed = true) (chooses : event.chooses = true) :
    ∀ t, (p.stepScreen s event).site.screen = some t → (p.stepScreen s event).Remembers t := by
  have unchanged : ∀ t, p.site.screen = some t → p.Remembers t := by
    intro t ht
    exact Option.some.inj (hs.symm.trans ht) ▸ remembers
  have written : ∀ {facing : Facing}, Facing.readFacing (p.writeFacing true facing).stored = facing :=
    Facing.readFacing_text _
  cases event with
  | mount apiAvailable readable => exact unchanged
  | unmount => simp [Page.stepScreen]
  | userMedia =>
    simp only [Page.stepScreen, Page.handleUserMedia]
    split
    · exact Remembers.render ⟨remembers.stored, nofun⟩
    · exact Remembers.render ⟨remembers.stored, nofun⟩
  | userMediaError closure error taken =>
    obtain rfl : taken = true := undisturbed
    simp only [Page.stepScreen, Page.handleUserMediaError]
    split
    · intro t ht
      obtain rfl := Option.some.inj (render_screen.symm.trans ht)
      exact ⟨written, nofun⟩
    · split
      · exact Remembers.render ⟨remembers.stored, remembers.fallback⟩
      · exact Remembers.render ⟨remembers.stored, remembers.fallback⟩
  | flip taken =>
    obtain rfl : taken = true := undisturbed
    simp only [Page.stepScreen, Page.flip]
    split
    · refine Remembers.render ⟨written, fun _ => ?_⟩
      cases s.facing <;> rfl
    · exact unchanged
  | lateError i taken => cases undisturbed
  | _ => cases chooses

theorem Remembers.step (remembers : ∀ s, p.site.screen = some s → p.Remembers s) {event : Event}
    (undisturbed : event.undisturbed = true) :
    ∀ t, (p.step event).site.screen = some t → (p.step event).Remembers t := by
  cases chooses : event.chooses with
  | false => exact Remembers.of_choice (step_choice chooses) remembers
  | true =>
    unfold Page.step
    split
    next apiAvailable readable hs =>
      obtain ⟨rfl, rfl⟩ : apiAvailable = true ∧ readable = true := Bool.and_eq_true_iff.mp undisturbed
      intro t ht
      obtain rfl := Option.some.inj (Components.Effect.commit_screen.symm.trans ht)
      exact ⟨rfl, nofun⟩
    next => cases chooses
    next => cases undisturbed
    next => cases chooses
    next hs => exact (remembers _ hs).stepScreen hs undisturbed chooses
    next => exact remembers

/-- A reload of the page asks for the camera that the screen has. -/
theorem facing_stored {stored : Option String} {events : List Event}
    (undisturbed : ∀ event ∈ events, event.undisturbed = true)
    {s : Screen} (hs : (run stored events).site.screen = some s) :
    Facing.readFacing (run stored events).stored = s.facing ∧
      (s.switching = true → s.facingBeforeSwitch = s.facing.other) := by
  have remembers : ∀ s, (run stored events).site.screen = some s → (run stored events).Remembers s :=
    List.foldlRecOn events step (motive := fun p => ∀ s, p.site.screen = some s → p.Remembers s)
      (fun s hs => by cases hs) fun _ remembers event he => Remembers.step remembers (undisturbed event he)
  exact ⟨(remembers s hs).stored, (remembers s hs).fallback⟩

theorem facing_stored_sample :
    Facing.readFacing (run (some "user") (sampleLive ++ [.flip true])).stored = .environment :=
  (facing_stored (s := ⟨.live, false, .environment, true, true, .user, 0⟩) (by decide) rfl).1

end Page

/-- The video answers the flip, or the screen is left. -/
def Event.endsFlip : Event → Bool
  | .unmount | .userMedia | .userMediaError true _ _ => true
  | _ => false

namespace Page

variable {p q : Page} {s s' : Screen}

/-- The page has a screen that waits for a flip away from this camera. -/
def Flipping (previous : Facing) (p : Page) : Prop :=
  ∃ s, p.site.screen = some s ∧ s.switching = true ∧ s.facingBeforeSwitch = previous

theorem Flipping.render {previous : Facing} (switching : s.switching = true)
    (fallback : s.facingBeforeSwitch = previous) : (p.render s).Flipping previous :=
  ⟨s, render_screen, switching, fallback⟩

theorem Flipping.of_choice {previous : Facing} (same : q.choice = p.choice) (flipping : p.Flipping previous) :
    q.Flipping previous := by
  obtain ⟨s, hs, switching, fallback⟩ := flipping
  have screen : q.site.screen.map Screen.choice = some s.choice := by
    rw [(Prod.mk.inj same).2, hs]
    rfl
  obtain ⟨t, ht, choice⟩ := Option.map_eq_some_iff.mp screen
  obtain ⟨switching', fallback'⟩ := Prod.mk.inj (Prod.mk.inj choice).2
  exact ⟨t, ht, switching'.trans switching, fallback'.trans fallback⟩

theorem Flipping.step {previous : Facing} (flipping : p.Flipping previous) {event : Event}
    (waits : event.endsFlip = false) : (p.step event).Flipping previous := by
  cases chooses : event.chooses with
  | false => exact flipping.of_choice (step_choice chooses)
  | true =>
    obtain ⟨s, hs, switching, fallback⟩ := id flipping
    cases event with
    | mount apiAvailable readable =>
      simp only [Page.step, hs]
      exact flipping
    | unmount => cases waits
    | userMedia => cases waits
    | userMediaError closure error written =>
      cases closure with
      | true => cases waits
      | false =>
        simp only [Page.step, hs, Page.stepScreen, Page.handleUserMediaError, Bool.false_eq_true, ↓reduceIte]
        split <;> exact Flipping.render switching fallback
    | lateError i written =>
      simp only [Page.step]
      split <;> exact ⟨s, hs, switching, fallback⟩
    | flip written =>
      have still : ¬ (s.phase = .live ∧ s.canFlip = true ∧ ¬ s.switching = true ∧ ¬ s.busy = true) :=
        fun ready => ready.2.2.1 switching
      simp only [Page.step, hs, Page.stepScreen, Page.flip, if_neg still]
      exact flipping
    | _ => cases chooses

/-- A flip to a camera that refuses to start gives back the one before, whatever happens in between, and what
the screen shows is left alone. -/
theorem failed_flip (hs : p.site.screen = some s)
    (ready : s.phase = .live ∧ s.canFlip = true ∧ s.switching = false ∧ s.busy = false)
    (between : List Event) (waits : ∀ event ∈ between, event.endsFlip = false) (written : Bool)
    (error : MediaError) :
    ∃ before after, (between.foldl step (p.step (.flip written))).site.screen = some before ∧
      ((between.foldl step (p.step (.flip written))).step (.userMediaError true error true)).site.screen =
        some after ∧
      after = { before with switching := false, facing := s.facing } ∧
      Facing.readFacing
        ((between.foldl step (p.step (.flip written))).step (.userMediaError true error true)).stored =
        s.facing := by
  obtain ⟨live, canFlip, still, idle⟩ := ready
  have flipped : (p.step (.flip written)).Flipping s.facing := by
    have first : p.step (.flip written) = p.flip s written := by simp only [Page.step, hs]; rfl
    rw [first, Page.flip, if_pos ⟨live, canFlip, by simp [still], by simp [idle]⟩]
    exact Flipping.render rfl rfl
  obtain ⟨t, ht, switching, fallback⟩ : (between.foldl step (p.step (.flip written))).Flipping s.facing :=
    List.foldlRecOn between step flipped fun _ flipping event he => flipping.step (waits event he)
  generalize between.foldl step (p.step (.flip written)) = q at *
  have last : q.step (.userMediaError true error true) = q.handleUserMediaError t true error true := by
    simp only [Page.step, ht]
    rfl
  refine ⟨t, { t with switching := false, facing := t.facingBeforeSwitch }, ht, ?_, by rw [fallback], ?_⟩
  · rw [last]
    exact render_screen
  · rw [last, ← fallback]
    exact Facing.readFacing_text _

theorem failed_flip_sample : ∃ s, (((run (some "user") (sampleLive ++ [.flip true])).step
    (.visible false)).step (.userMediaError true (.text "NotReadableError") true)).site.screen = some s ∧
      s.facing = .user := by
  obtain ⟨_, after, _, shown, rfl, _⟩ := failed_flip (p := run (some "user") sampleLive)
    (s := ⟨.live, false, .user, true, false, .user, 0⟩) rfl (by decide) [.visible false] (by decide) true
    (.text "NotReadableError")
  exact ⟨_, shown, rfl⟩

end Page

end CameraView

end ItalyTrip
