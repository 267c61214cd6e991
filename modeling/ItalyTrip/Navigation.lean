import ItalyTrip.Browser
import ItalyTrip.Handler
import ItalyTrip.History

namespace ItalyTrip

namespace Navigation

/-- The routes, and what none of them matches. -/
inductive Path where
  | login
  | home
  | album
  | photo (photoId : String)
  | slideshow
  | other (pathname : String)
  deriving DecidableEq

/-- An entry of the history of a tab. It was `entered` where an address made it, and not a link of the app. -/
structure Entry where
  path : Path
  entered : Bool
  deriving DecidableEq

/-- What `useEvent` returns. -/
inductive EventQuery where
  | pending
  | error (e : JsError)
  | success (event : EventResponse)
  deriving DecidableEq

/-- What `usePhotos` returns: the album, as far as it is there, and whether one is still expected. -/
structure PhotosQuery where
  data : Option (List PhotoResponse)
  failed : Bool

namespace PhotosQuery

def isPending (q : PhotosQuery) : Bool := q.data.isNone && !q.failed

def photos (q : PhotosQuery) : List PhotoResponse := q.data.getD []

end PhotosQuery

/-- What the gate renders. -/
inductive Gate where
  | navigate (target : Path)
  | splash (lines : List String)
  | noEvent
  | outlet (event : EventResponse)

def isUnauthorized : JsError → Bool
  | .api e => e.status == 401
  | .other _ => false

def isNotFound : JsError → Bool
  | .api e => e.status == 404
  | .other _ => false

def gate (token : Option String) (query : EventQuery) (location : Path) : Gate :=
  if token.getD "" = "" then .navigate .login
  else
    match query with
    | .pending => .splash ["Loading…"]
    | .error e =>
      if isUnauthorized e then .navigate .login
      else if isNotFound e then .noEvent
      else .splash ["Could not reach the server.", e.message, "It will keep trying."]
    | .success event =>
      let onCamera := location = .home
      if event.isOver = false ∧ ¬ onCamera then .navigate .home
      else if event.isOver = true ∧ onCamera then .navigate .album
      else .outlet event

/-- A render of the viewer. -/
structure Viewer where
  photoId : String
  photos : List PhotoResponse
  isPending : Bool

namespace Viewer

def index (v : Viewer) : Option Nat := v.photos.findIdx? (·.id == v.photoId)

def photo (v : Viewer) : Option PhotoResponse := v.index.bind (v.photos[·]?)

def previous (v : Viewer) : Option PhotoResponse :=
  v.index.bind fun i => if 0 < i then v.photos[i - 1]? else none

def next (v : Viewer) : Option PhotoResponse :=
  v.index.bind fun i => if i + 1 < v.photos.length then v.photos[i + 1]? else none

/-- The photo is on the screen, with its buttons and what listens to touches. -/
def shown (v : Viewer) : Bool := !v.isPending && v.photo.isSome

end Viewer

inductive View where
  | blank
  | navigate (target : Path)
  | splash (lines : List String)
  | noEvent
  | notFound
  | login
  | camera (event : EventResponse)
  | album (event : EventResponse) (photos : List PhotoResponse)
  | viewer (v : Viewer)
  | slideshow (event : EventResponse)

/-- The page of a tab: its history, what a render reads, and what the last render made of it. -/
structure Page where
  history : History Entry
  token : Option String
  event : EventQuery
  photos : PhotosQuery
  view : View
  touchStart : Option Int

/-- Below this many pixels a horizontal drag is a tap, not a swipe. -/
def swipeThreshold : Int := 50

inductive Event where
  | token (token : Option String)
  | event (query : EventQuery)
  | photos (query : PhotosQuery)
  | render
  | back
  | forward
  | enter (path : Path)
  | loggedIn (token : String)
  | tile (i : Nat)
  | slideshow
  | link
  | key (key : String)
  | button (next : Bool)
  | touchStart (clientX : Option Int)
  | touchEnd (clientX : Option Int)

namespace Page

/-- The page of a tab that is opened at an address. -/
def start (path : Path) (token : Option String) : Page :=
  ⟨⟨[], ⟨path, true⟩, []⟩, token, .pending, ⟨none, false⟩, .blank, none⟩

def location (p : Page) : Path := p.history.current.path

def navigate (p : Page) (target : Path) : Page := { p with history := p.history.push ⟨target, false⟩ }

def replace (p : Page) (target : Path) : Page :=
  { p with history := p.history.replace { p.history.current with path := target } }

def outlet (p : Page) (event : EventResponse) : View :=
  match p.location with
  | .login => .login
  | .home => .camera event
  | .album => .album event p.photos.photos
  | .photo photoId => .viewer ⟨photoId, p.photos.photos, p.photos.isPending⟩
  | .slideshow => .slideshow event
  | .other _ => .notFound

/-- What a render makes of the location. -/
def routes (p : Page) : View :=
  match p.location with
  | .login => .login
  | .other _ => .notFound
  | location =>
    match gate p.token p.event location with
    | .navigate target => .navigate target
    | .splash lines => .splash lines
    | .noEvent => .noEvent
    | .outlet event => p.outlet event

/-- A viewer that is left forgets the touch. -/
def display (p : Page) (view : View) : Page :=
  { p with
    view := view
    touchStart := match view with
      | .viewer _ => p.touchStart
      | _ => none }

def render (p : Page) : Page :=
  match p.routes with
  | .navigate target => (p.display (.navigate target)).replace target
  | view => p.display view

/-- Between photos the entry is replaced, so that back returns to the grid. -/
def go (p : Page) (target : Option PhotoResponse) : Page :=
  match target with
  | some photo => p.replace (.photo photo.id)
  | none => p

def onKey (p : Page) (v : Viewer) (key : String) : Page :=
  if key = "ArrowLeft" then p.go v.previous
  else if key = "ArrowRight" then p.go v.next
  else if key = "Escape" then p.navigate .album
  else p

def onTouchEnd (p : Page) (v : Viewer) (clientX : Option Int) : Page :=
  match p.touchStart with
  | none => p
  | some start =>
    let p := { p with touchStart := none }
    let delta := clientX.getD start - start
    if delta ≤ -swipeThreshold then p.go v.next
    else if swipeThreshold ≤ delta then p.go v.previous
    else p

/-- A new document: nothing has been fetched or rendered. -/
def enter (p : Page) (path : Path) : Page :=
  { start path p.token with
    history := if path = p.location then p.history else p.history.push ⟨path, true⟩ }

/-- What is done on the screen is done on the last render. -/
def onScreen (p : Page) (event : Event) : Page :=
  match event, p.view with
  | .loggedIn token, .login => { p with token := some token }.navigate .home
  | .tile i, .album _ photos =>
    match photos[i]? with
    | some photo => p.navigate (.photo photo.id)
    | none => p
  | .slideshow, .album _ photos => if photos = [] then p else p.navigate .slideshow
  | .link, .viewer v => if v.isPending then p else p.navigate .album
  | .link, .slideshow _ => p.navigate .album
  | .key key, .viewer v => p.onKey v key
  | .button next, .viewer v => if v.shown then p.go (if next then v.next else v.previous) else p
  | .touchStart clientX, .viewer v => if v.shown then { p with touchStart := clientX } else p
  | .touchEnd clientX, .viewer v => if v.shown then p.onTouchEnd v clientX else p
  | _, _ => p

def step (p : Page) (event : Event) : Page :=
  match event with
  | .token token => { p with token := token }
  | .event query => { p with event := query }
  | .photos query => { p with photos := query }
  | .render => p.render
  | .back => { p with history := p.history.back }
  | .forward => { p with history := p.history.forward }
  | .enter path => p.enter path
  | event => p.onScreen event

def run (p : Page) (events : List Event) : Page := events.foldl step p

end Page

/-- Where the grid is shown, or the way to it starts. -/
def Path.Landing (path : Path) : Prop := path = .login ∨ path = .home ∨ path = .album

/-- The entry shows a photo, and was made by the app. -/
def Entry.Opened (e : Entry) : Prop := e.entered = false ∧ ∃ photoId, e.path = .photo photoId

/-- A photo that the app has opened is above the grid, or above what has become of it. -/
def Behind (b e : Entry) : Prop := e.Opened → b.path.Landing

theorem not_opened {e : Entry} (h : ∀ photoId, e.path ≠ .photo photoId) : ¬ e.Opened :=
  fun opened => opened.2.elim h

theorem Path.Landing.not_photo {path : Path} (h : path.Landing) (photoId : String) :
    path ≠ .photo photoId := by
  rintro rfl
  rcases h with h | h | h <;> cases h

/-- The location of what is on the screen. -/
def View.path : View → Option Path
  | .login => some .login
  | .camera _ => some .home
  | .album _ _ => some .album
  | .viewer v => some (.photo v.photoId)
  | .slideshow _ => some .slideshow
  | _ => none

namespace Page

/-- What opens a photo is done on the screen of the location. -/
def Timely (p : Page) : Event → Prop
  | .tile _ | .key _ | .button _ | .touchEnd _ => p.view.path = some p.location
  | _ => True

/-- Every event of the run is timely. -/
def RunTimely : Page → List Event → Prop
  | _, [] => True
  | p, event :: events => p.Timely event ∧ (p.step event).RunTimely events

/-- What holds of the history after every event. -/
abbrev Good (p : Page) : Prop := p.history.Linked (fun e => ¬ e.Opened) Behind

variable {p : Page}

@[simp] theorem go_touchStart (target : Option PhotoResponse) : (p.go target).touchStart = p.touchStart := by
  cases target <;> rfl

theorem gate_landing {token : Option String} {query : EventQuery} {location target : Path}
    (h : gate token query location = .navigate target) : target.Landing := by
  unfold gate at h
  split at h
  · cases h
    exact Or.inl rfl
  · split at h
    · cases h
    · split at h
      · cases h
        exact Or.inl rfl
      · split at h <;> cases h
    · dsimp only at h
      split at h
      · cases h
        exact Or.inr (Or.inl rfl)
      · split at h
        · cases h
          exact Or.inr (Or.inr rfl)
        · cases h

theorem routes_landing {target : Path} (h : p.routes = .navigate target) : target.Landing := by
  unfold routes at h
  split at h
  · cases h
  · cases h
  · split at h
    next redirect =>
      cases h
      exact gate_landing redirect
    · cases h
    · cases h
    · unfold outlet at h
      split at h <;> cases h

theorem Good.redirect (good : p.Good) {target : Path} (landing : target.Landing) :
    (p.replace target).Good := by
  refine History.Linked.replace good (fun _ => ?_) (fun _ _ => ?_) (fun _ _ _ => landing)
  · exact not_opened landing.not_photo
  · exact fun opened => absurd opened (not_opened landing.not_photo)

theorem Good.render (good : p.Good) : p.render.Good := by
  unfold Page.render
  split
  next target h => exact Good.redirect (p := p.display (.navigate target)) good (routes_landing h)
  next => exact good

/-- A link to anything but a photo. -/
theorem Good.navigate (good : p.Good) {target : Path} (h : ∀ photoId, target ≠ .photo photoId) :
    (p.navigate target).Good :=
  History.Linked.push good fun opened => absurd opened (not_opened h)

/-- The walk from photo to photo keeps what is behind and ahead. -/
theorem Good.go (good : p.Good) {photoId : String} (here : p.location = .photo photoId)
    (target : Option PhotoResponse) : (p.go target).Good := by
  unfold Page.go
  split
  next photo =>
    have same : Entry.Opened { p.history.current with path := .photo photo.id } →
        p.history.current.Opened := fun opened => ⟨opened.1, photoId, here⟩
    refine History.Linked.replace good (fun alone opened => alone (same opened))
      (fun b below opened => below (same opened)) (fun a above opened => ?_)
    have landing : p.location.Landing := above opened
    exact absurd here (landing.not_photo photoId)
  next => exact good

theorem Good.onKey (good : p.Good) {v : Viewer} (here : p.location = .photo v.photoId) (key : String) :
    (p.onKey v key).Good := by
  unfold Page.onKey
  split
  · exact good.go here v.previous
  · split
    · exact good.go here v.next
    · split
      · exact good.navigate nofun
      · exact good

theorem Good.onTouchEnd (good : p.Good) {v : Viewer} (here : p.location = .photo v.photoId)
    (clientX : Option Int) : (p.onTouchEnd v clientX).Good := by
  unfold Page.onTouchEnd
  split
  · exact good
  · have good : Good { p with touchStart := none } := good
    dsimp only
    split
    · exact good.go here v.next
    · split
      · exact good.go here v.previous
      · exact good

/-- Opening a photo is the one step that puts one above something else. -/
theorem Good.tile (good : p.Good) (here : p.location = .album) {target : Path} : (p.navigate target).Good :=
  History.Linked.push good fun _ => Or.inr (Or.inr here)

theorem Good.onScreen (good : p.Good) {event : Event} (timely : p.Timely event) : (p.onScreen event).Good := by
  unfold Page.onScreen
  split
  next token _ => exact Good.navigate (p := { p with token := some token }) good nofun
  next i _ photos view =>
    have here : p.location = .album := by
      simpa [Timely, view, View.path] using timely.symm
    split
    · exact good.tile here
    · exact good
  next =>
    split
    · exact good
    · exact good.navigate nofun
  next =>
    split
    · exact good
    · exact good.navigate nofun
  next => exact good.navigate nofun
  next key v view =>
    have here : p.location = .photo v.photoId := by
      simpa [Timely, view, View.path] using timely.symm
    exact good.onKey here key
  next next v view =>
    have here : p.location = .photo v.photoId := by
      simpa [Timely, view, View.path] using timely.symm
    split
    · exact good.go here _
    · exact good
  next =>
    split
    · exact good
    · exact good
  next clientX v view =>
    have here : p.location = .photo v.photoId := by
      simpa [Timely, view, View.path] using timely.symm
    split
    · exact good.onTouchEnd here clientX
    · exact good
  next => exact good

theorem Good.step (good : p.Good) {event : Event} (timely : p.Timely event) : (p.step event).Good := by
  cases event with
  | token token => exact good
  | event query => exact good
  | photos query => exact good
  | render => exact good.render
  | back => exact History.Linked.back good
  | forward => exact History.Linked.forward good
  | enter path =>
    simp only [Page.step, Page.enter, Page.Good]
    split
    · exact good
    · exact History.Linked.push good fun opened => nomatch opened.1
  | loggedIn token => exact good.onScreen timely
  | tile i => exact good.onScreen timely
  | slideshow => exact good.onScreen timely
  | link => exact good.onScreen timely
  | key key => exact good.onScreen timely
  | button next => exact good.onScreen timely
  | touchStart clientX => exact good.onScreen timely
  | touchEnd clientX => exact good.onScreen timely

theorem run_keeps_good (good : p.Good) {events : List Event} (timely : p.RunTimely events) :
    (p.run events).Good := by
  induction events generalizing p with
  | nil => exact good
  | cons event events ih => exact ih (good.step timely.1) timely.2

theorem good_start (path : Path) (token : Option String) : (start path token).Good where
  oldest e he := by
    cases he
    exact fun opened => nomatch opened.1
  chain := List.isChain_singleton _

/-- The gate leads from such a location to the grid, or is not asked. -/
theorem landing_settles (landing : p.location.Landing) (signedIn : p.token.getD "" ≠ "")
    {event : EventResponse} (known : p.event = .success event) (isOver : event.isOver = true) :
    (p.render.render.view = .album event p.photos.photos ∨ p.render.render.view = .login) ∧
      p.render.render.history.ahead = p.history.ahead := by
  have atAlbum : ∀ p : Page, p.location = .album → p.token.getD "" ≠ "" → p.event = .success event →
      p.render = p.display (.album event p.photos.photos) := by
    intro p here signedIn known
    simp [render, routes, here, gate, signedIn, known, isOver, outlet]
  rcases landing with here | here | here
  · have once : p.render = p.display .login := by simp [render, routes, here]
    have twice : (p.display .login).render = (p.display .login).display .login := by
      simp [render, routes, show (p.display .login).location = .login from here]
    rw [once, twice]
    exact ⟨Or.inr rfl, rfl⟩
  · have once : p.render = (p.display (.navigate .album)).replace .album := by
      simp [render, routes, here, gate, signedIn, known, isOver]
    have twice := atAlbum ((p.display (.navigate .album)).replace .album) rfl signedIn known
    rw [once, twice]
    exact ⟨Or.inl rfl, rfl⟩
  · have twice := atAlbum (p.display (.album event p.photos.photos)) here signedIn known
    rw [atAlbum p here signedIn known, twice]
    exact ⟨Or.inl rfl, rfl⟩

/-- Back from a photo that was opened in the app shows the grid once the event is over, however many photos
have been walked through, or the login where the tab was signed out there; the photo is the next one ahead. -/
theorem back_shows_grid (path : Path) (token : Option String) {events : List Event}
    (timely : (start path token).RunTimely events) {p : Page} (reached : p = (start path token).run events)
    (opened : p.history.current.Opened) (signedIn : p.token.getD "" ≠ "")
    {event : EventResponse} (known : p.event = .success event) (isOver : event.isOver = true) :
    let q := (((p.step .back).step .render).step .render)
    (q.view = .album event p.photos.photos ∨ q.view = .login) ∧
      q.history.ahead.head? = some p.history.current := by
  have good : p.Good := reached ▸ run_keeps_good (good_start path token) timely
  have current := History.Linked.current good
  cases hb : p.history.behind with
  | nil =>
    rw [hb] at current
    exact absurd opened current
  | cons b rest =>
    rw [hb] at current
    have went : p.history.back = ⟨rest, b, p.history.current :: p.history.ahead⟩ := by
      simp [History.back, hb]
    have landing : (p.step .back).location.Landing := by
      simp only [Page.step, location, went]
      exact current opened
    obtain ⟨grid, ahead⟩ := landing_settles landing signedIn known isOver
    refine ⟨grid, ?_⟩
    change (p.step .back).render.render.history.ahead.head? = _
    rw [ahead]
    simp [Page.step, went]

def sampleOver : EventResponse := ⟨"1", "Italy Trip", 0, 1, true, 3⟩

def samplePhotos : List PhotoResponse :=
  ["a", "b", "c"].map fun id => ⟨id, 0, 1600, 1200, ⟨id, 3600, ""⟩, ⟨id, 3600, ""⟩⟩

/-- The first photo is opened. -/
def sampleOpened : List Event :=
  [.event (.success sampleOver), .photos ⟨some samplePhotos, false⟩, .render, .render, .tile 0, .render]

/-- Two others are walked to. -/
private def sampleVisit : List Event :=
  sampleOpened ++ [.key "ArrowRight", .render, .touchStart (some 200), .touchEnd (some 20), .render]

theorem back_shows_grid_sample :
    let p := (start .home (some "token")).run sampleVisit
    p.location = .photo "c" ∧
      (((p.step .back).step .render).step .render).history.ahead.head? = some p.history.current := by
  have timely : (start .home (some "token")).RunTimely sampleVisit := by
    simp only [sampleVisit, sampleOpened, List.cons_append, List.nil_append, RunTimely, Timely]
    decide +kernel
  have opened : ((start .home (some "token")).run sampleVisit).history.current.Opened :=
    ⟨by decide +kernel, "c", by decide +kernel⟩
  have grid := back_shows_grid .home (some "token") timely rfl opened (by decide +kernel) rfl rfl
  exact ⟨by decide +kernel, grid.2⟩

end Page

/-- What the viewer is for: a walk through an album by place. The photo on the screen is `shown`, and the
last move has `reached` the one that the next render shows. -/
structure Walk where
  shown : Nat
  reached : Nat

inductive Move where
  | previous
  | next
  | render

/-- A move starts from what is shown, and ends at the first and the last photo. -/
def Walk.move (total : Nat) (w : Walk) : Move → Walk
  | .previous => if 0 < w.shown then { w with reached := w.shown - 1 } else w
  | .next => if w.shown + 1 < total then { w with reached := w.shown + 1 } else w
  | .render => ⟨w.reached, w.reached⟩

/-- A drag of at least the threshold is a move. -/
def swipe (start clientX : Option Int) : List Move :=
  match start with
  | none => []
  | some start =>
    let delta := clientX.getD start - start
    if delta ≤ -swipeThreshold then [.next] else if swipeThreshold ≤ delta then [.previous] else []

/-- The moves of an event, after a touch that started at `touch`. -/
def moveOf (touch : Option Int) : Event → List Move
  | .render => [.render]
  | .key key => if key = "ArrowLeft" then [.previous] else if key = "ArrowRight" then [.next] else []
  | .button next => if next then [.next] else [.previous]
  | .touchEnd clientX => swipe touch clientX
  | _ => []

def touchAfter (touch : Option Int) : Event → Option Int
  | .touchStart clientX => clientX
  | .touchEnd _ => none
  | _ => touch

def moves : Option Int → List Event → List Move
  | _, [] => []
  | touch, event :: events => moveOf touch event ++ moves (touchAfter touch event) events

/-- The event neither leaves the viewer nor ends what lets it be shown; the album may come anew, with the same
photos at other addresses. -/
def Stays (ids : List String) : Event → Prop
  | .token token => token.getD "" ≠ ""
  | .event (.success event) => event.isOver = true
  | .photos query => query.data.map (·.map PhotoResponse.id) = some ids
  | .key key => key ≠ "Escape"
  | .render | .button _ | .touchStart _ | .touchEnd _ => True
  | _ => False

/-- The viewer is on the photo that the walk shows, at the entry of the one it has reached; the rest of the
history is that of `h`. -/
structure Walks (ids : List String) (h : History Entry) (w : Walk) (p : Page) : Prop where
  shown : ∃ v, p.view = .viewer v ∧ v.isPending = false ∧ v.photos.map PhotoResponse.id = ids ∧
    ids[w.shown]? = some v.photoId
  reached : ∃ photoId, ids[w.reached]? = some photoId ∧
    p.history = h.replace { h.current with path := .photo photoId }
  signedIn : p.token.getD "" ≠ ""
  isOver : ∃ event, p.event = .success event ∧ event.isOver = true
  album : p.photos.data.map (·.map PhotoResponse.id) = some ids

variable {ids : List String} {h : History Entry} {w : Walk} {p : Page} {v : Viewer}

namespace Viewer

/-- A photo is found at the one place that its id has. -/
theorem index_eq (nodup : ids.Nodup) (same : v.photos.map PhotoResponse.id = ids) {i : Nat}
    (here : ids[i]? = some v.photoId) : v.index = some i := by
  subst same
  obtain ⟨inside, hid⟩ := List.getElem?_eq_some_iff.mp here
  rw [List.length_map] at inside
  rw [List.getElem_map] at hid
  unfold index
  refine List.findIdx?_eq_some_iff_getElem.mpr ⟨inside, by simp [hid], fun j earlier => ?_⟩
  have before : j < v.photos.length := Nat.lt_trans earlier inside
  have apart : v.photos[j].id ≠ v.photos[i].id := by
    intro equal
    have twice : (v.photos.map PhotoResponse.id)[j]? = (v.photos.map PhotoResponse.id)[i]? := by
      simp [before, inside, equal]
    have := (List.getElem?_inj (by simpa using before) nodup).mp twice
    omega
  simpa [hid] using apart

theorem next_id (nodup : ids.Nodup) (same : v.photos.map PhotoResponse.id = ids) {i : Nat}
    (here : ids[i]? = some v.photoId) : v.next.map PhotoResponse.id = ids[i + 1]? := by
  rw [next, index_eq nodup same here, Option.bind_some]
  subst same
  by_cases more : i + 1 < v.photos.length
  all_goals simp [more]

theorem previous_id (nodup : ids.Nodup) (same : v.photos.map PhotoResponse.id = ids) {i : Nat}
    (here : ids[i]? = some v.photoId) :
    v.previous.map PhotoResponse.id = if 0 < i then ids[i - 1]? else none := by
  rw [previous, index_eq nodup same here, Option.bind_some]
  subst same
  split <;> simp

theorem shown_eq (nodup : ids.Nodup) (same : v.photos.map PhotoResponse.id = ids) {i : Nat}
    (here : ids[i]? = some v.photoId) (there : v.isPending = false) : v.shown = true := by
  have inside : i < v.photos.length := by
    obtain ⟨inside, -⟩ := List.getElem?_eq_some_iff.mp here
    rwa [← same, List.length_map] at inside
  simp [shown, there, photo, index_eq nodup same here, inside]

end Viewer

namespace Walks

/-- The entry of another photo takes the place of the one that was reached. -/
theorem go (walks : Walks ids h w p) {target : Option PhotoResponse} {reached : Nat}
    (there : target.map PhotoResponse.id = ids[reached]?) (inside : reached < ids.length) :
    Walks ids h { w with reached := reached } (p.go target) := by
  obtain ⟨photo, rfl, hid⟩ : ∃ photo, target = some photo ∧ ids[reached] = photo.id := by
    rw [List.getElem?_eq_getElem inside] at there
    obtain ⟨photo, rfl, hid⟩ := Option.map_eq_some_iff.mp there
    exact ⟨photo, rfl, hid.symm⟩
  refine ⟨walks.shown, ⟨photo.id, ?_, ?_⟩, walks.signedIn, walks.isOver, walks.album⟩
  · simp [inside, hid]
  · obtain ⟨_, -, hh⟩ := walks.reached
    simp [Page.go, Page.replace, History.replace, hh]

theorem next (nodup : ids.Nodup) (walks : Walks ids h w p) (view : p.view = .viewer v) :
    Walks ids h (w.move ids.length .next) (p.go v.next) := by
  obtain ⟨v', view', -, same, here⟩ := walks.shown
  obtain rfl : v = v' := View.viewer.inj (view.symm.trans view')
  have there := Viewer.next_id nodup same here
  simp only [Walk.move]
  split
  next more => exact walks.go there more
  next last =>
    rw [List.getElem?_eq_none (Nat.not_lt.mp last), Option.map_eq_none_iff] at there
    rw [there]
    exact walks

theorem previous (nodup : ids.Nodup) (walks : Walks ids h w p) (view : p.view = .viewer v) :
    Walks ids h (w.move ids.length .previous) (p.go v.previous) := by
  obtain ⟨v', view', -, same, here⟩ := walks.shown
  obtain rfl : v = v' := View.viewer.inj (view.symm.trans view')
  have there := Viewer.previous_id nodup same here
  obtain ⟨inside, -⟩ := List.getElem?_eq_some_iff.mp here
  simp only [Walk.move]
  split
  next later =>
    rw [if_pos later] at there
    exact walks.go there (by omega)
  next first =>
    rw [if_neg first, Option.map_eq_none_iff] at there
    rw [there]
    exact walks

theorem render (walks : Walks ids h w p) :
    Walks ids h (w.move ids.length .render) p.render ∧ p.render.touchStart = p.touchStart := by
  obtain ⟨v, view, -⟩ := walks.shown
  obtain ⟨photoId, reached, hh⟩ := walks.reached
  obtain ⟨event, known, isOver⟩ := walks.isOver
  have here : p.location = .photo photoId := by simp [Page.location, hh, History.replace]
  obtain ⟨photos, data, same⟩ := Option.map_eq_some_iff.mp walks.album
  have rendered : p.render = p.display (.viewer ⟨photoId, photos, false⟩) := by
    simp [Page.render, Page.routes, here, gate, walks.signedIn, known, isOver, Page.outlet,
      PhotosQuery.photos, PhotosQuery.isPending, data]
  rw [rendered]
  have there : ∃ id, ids[w.reached]? = some id ∧
      p.history = h.replace { h.current with path := .photo id } := ⟨photoId, reached, hh⟩
  exact ⟨⟨⟨_, rfl, rfl, same, reached⟩, there, walks.signedIn, walks.isOver, walks.album⟩, rfl⟩

theorem touchEnd (nodup : ids.Nodup) (walks : Walks ids h w p) (view : p.view = .viewer v)
    (clientX : Option Int) :
    Walks ids h ((swipe p.touchStart clientX).foldl (Walk.move ids.length) w) (p.onTouchEnd v clientX) ∧
      (p.onTouchEnd v clientX).touchStart = none := by
  simp only [Page.onTouchEnd, swipe]
  cases hstart : p.touchStart with
  | none => exact ⟨walks, hstart⟩
  | some start =>
    have walks : Walks ids h w { p with touchStart := none } := { walks with }
    dsimp only
    split
    · exact ⟨walks.next nodup view, by simp⟩
    · split
      · exact ⟨walks.previous nodup view, by simp⟩
      · exact ⟨walks, rfl⟩

/-- An event makes its moves. -/
theorem step (nodup : ids.Nodup) (walks : Walks ids h w p) {event : Event} (stays : Stays ids event) :
    Walks ids h ((moveOf p.touchStart event).foldl (Walk.move ids.length) w) (p.step event) ∧
      (p.step event).touchStart = touchAfter p.touchStart event := by
  obtain ⟨v, view, there, same, here⟩ := walks.shown
  have shown := Viewer.shown_eq nodup same here there
  cases event with
  | token token => exact ⟨{ walks with signedIn := stays }, rfl⟩
  | event query =>
    cases query with
    | success event => exact ⟨{ walks with isOver := ⟨event, rfl, stays⟩ }, rfl⟩
    | pending => exact stays.elim
    | error e => exact stays.elim
  | photos query => exact ⟨{ walks with album := stays }, rfl⟩
  | render => exact walks.render
  | key key =>
    simp only [Page.step, Page.onScreen, view, Page.onKey, moveOf, touchAfter]
    split
    · exact ⟨walks.previous nodup view, by simp⟩
    · split
      · exact ⟨walks.next nodup view, by simp⟩
      · rw [if_neg stays]
        exact ⟨walks, rfl⟩
  | button next =>
    simp only [Page.step, Page.onScreen, view, shown, moveOf, touchAfter]
    cases next with
    | true => exact ⟨walks.next nodup view, by simp⟩
    | false => exact ⟨walks.previous nodup view, by simp⟩
  | touchStart clientX =>
    have touched : p.step (.touchStart clientX) = { p with touchStart := clientX } := by
      simp [Page.step, Page.onScreen, view, shown]
    rw [touched]
    exact ⟨{ walks with }, rfl⟩
  | touchEnd clientX =>
    have released : p.step (.touchEnd clientX) = p.onTouchEnd v clientX := by
      simp [Page.step, Page.onScreen, view, shown]
    rw [released]
    exact walks.touchEnd nodup view clientX
  | back => exact stays.elim
  | forward => exact stays.elim
  | enter path => exact stays.elim
  | loggedIn token => exact stays.elim
  | tile i => exact stays.elim
  | slideshow => exact stays.elim
  | link => exact stays.elim

end Walks

/-- However keys, buttons, touches, renders and fresh addresses follow one another, the viewer walks through
the album by place: it never leaves it, moves by one photo at a time, and keeps the rest of the history. -/
theorem viewer_walks (nodup : ids.Nodup) (walks : Walks ids h w p) {events : List Event}
    (stays : ∀ event ∈ events, Stays ids event) :
    Walks ids h ((moves p.touchStart events).foldl (Walk.move ids.length) w) (p.run events) := by
  induction events generalizing w p with
  | nil => exact walks
  | cons event events ih =>
    obtain ⟨here, stays⟩ := List.forall_mem_cons.mp stays
    obtain ⟨walks, touch⟩ := walks.step nodup here
    rw [moves, List.foldl_append, ← touch]
    exact ih walks stays

/-- Two keys before a render move by one photo. -/
theorem viewer_walks_sample :
    let p := (Page.start .home (some "token")).run Page.sampleOpened
    (p.run [.key "ArrowRight", .key "ArrowRight", .render]).location = .photo "b" := by
  intro p
  have walks : Walks ["a", "b", "c"] p.history ⟨0, 0⟩ p :=
    { shown := ⟨⟨"a", Page.samplePhotos, false⟩, rfl, rfl, by decide, rfl⟩
      reached := ⟨"a", rfl, rfl⟩
      signedIn := by decide +kernel
      isOver := ⟨_, rfl, rfl⟩
      album := by decide +kernel }
  have stays : ∀ event ∈ ([.key "ArrowRight", .key "ArrowRight", .render] : List Event),
      Stays ["a", "b", "c"] event := by
    simp [Stays]
  obtain ⟨photoId, there, history⟩ := (viewer_walks (by decide) walks stays).reached
  have b : "b" = photoId := Option.some.inj there
  simp [Page.location, history, History.replace, b]

end Navigation

end ItalyTrip
