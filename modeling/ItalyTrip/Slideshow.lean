import ItalyTrip.Component
import ItalyTrip.Handler
import Mathlib.Data.List.Perm.Subperm
import Mathlib.Data.Nat.ModEq

namespace ItalyTrip

namespace Slideshow

def slideMs : Nat := 4000

/-- `data` is `none` until the album is there. -/
structure Screen where
  data : Option (List PhotoResponse)
  index : Nat
  playing : Bool

namespace Screen

def photos (s : Screen) : List PhotoResponse := s.data.getD []

def total (s : Screen) : Nat := s.photos.length

/-- Wraps in both directions. -/
def advance (step : Int) (s : Screen) : Screen :=
  if s.total = 0 then s else { s with index := ((s.index + step + s.total) % s.total).toNat }

/-- `photos[index]!` is a photo, unless the page says that there is none. -/
def renders (s : Screen) : Bool := s.total = 0 || s.index < s.total

theorem renders_iff {s : Screen} : s.renders = true ↔ s.total = 0 ∨ s.index < s.total := by
  simp [renders]

end Screen

/-- A run of the effect that swaps the slides, and the image it waits for. -/
structure Swap where
  round : Nat
  nextUrl : Option SignedURL
  deriving DecidableEq

structure Deps where
  playing : Bool
  index : Nat
  photos : List PhotoResponse
  deriving DecidableEq

/-- What the effect sets up, and cancels again. -/
def slides : Components.Effect Screen Deps Swap where
  deps s := ⟨s.playing, s.index, s.photos⟩
  take round deps :=
    if deps.playing ∧ 1 < deps.photos.length then
      some ⟨round, deps.photos[(deps.index + 1) % deps.photos.length]?.map PhotoResponse.url⟩
    else none

/-- The page with the slideshow. The effect last ran at `setAt`; its timer is `armed` until it fires, and then
the swap is among those that are `loading` their image. -/
structure Page where
  site : Components.Site Screen Swap
  now : Nat
  setAt : Nat
  armed : Option Swap
  loading : List Swap
  broken : Bool

def Page.start : Page := ⟨.empty, 0, 0, none, [], false⟩

inductive Event where
  | mount (data : Option (List PhotoResponse))
  | unmount
  | fetched (photos : List PhotoResponse)
  | toggle
  | advance (forward : Bool)
  | pass (ms : Nat)
  | fires
  | loaded (i : Nat)

namespace Page

/-- Where the effect runs again, the timer of its last run is cleared. -/
def commit (p : Page) (screen : Option Screen) : Page :=
  let site := slides.commit p.site screen
  if site.rounds = p.site.rounds then { p with site := site }
  else { p with site := site, setAt := p.now, armed := site.taken }

/-- A render that throws takes the page down. -/
def render (p : Page) (s : Screen) : Page :=
  if s.renders then p.commit (some s) else { p.commit none with broken := true }

def step (p : Page) (event : Event) : Page :=
  match event, p.site.screen with
  | .mount data, none => p.render ⟨data, 0, true⟩
  | .unmount, some _ => p.commit none
  | .fetched photos, some s => p.render { s with data := some photos }
  | .toggle, some s => p.render { s with playing := !s.playing }
  | .advance forward, some s => p.render (s.advance (if forward then 1 else -1))
  | .pass ms, _ => { p with now := p.now + ms }
  | .fires, _ =>
    match p.armed with
    | some swap =>
      if p.setAt + slideMs ≤ p.now then { p with armed := none, loading := p.loading ++ [swap] } else p
    | none => p
  | .loaded i, screen =>
    match p.loading[i]?, screen with
    | some swap, some s =>
      let rest := { p with loading := p.loading.eraseIdx i }
      if p.site.taken = some swap then rest.render (s.advance 1) else rest
    | _, _ => { p with loading := p.loading.eraseIdx i }
  | _, _ => p

def run (events : List Event) : Page := events.foldl step start

/-- The swaps under way that have not been cancelled. -/
def pending (p : Page) : Nat := (p.armed.toList ++ p.loading).countP fun swap => p.site.taken = some swap

/-- What holds of the page after every event. -/
structure Good (p : Page) : Prop where
  holds : slides.Holds p.site
  renders : ∀ s, p.site.screen = some s → s.renders = true
  current : ∀ swap, p.armed = some swap → p.site.taken = some swap
  old : ∀ swap ∈ p.loading, swap.round ≤ p.site.rounds
  once : p.pending = if p.site.taken.isSome then 1 else 0
  due : ∀ swap ∈ p.loading, p.site.taken = some swap → p.setAt + slideMs ≤ p.now

variable {p : Page} {s : Screen}

/-- A swap carries the number of its run. -/
theorem round_of_holds {site : Components.Site Screen Swap} (holds : slides.Holds site) {swap : Swap}
    (h : site.taken = some swap) : swap.round = site.rounds := by
  unfold Components.Effect.Holds Components.Effect.setup at holds
  rw [h] at holds
  obtain ⟨s, -, htake⟩ := Option.bind_eq_some_iff.mp holds.symm
  simp only [slides] at htake
  split at htake
  · rw [← Option.some.inj htake]
  · cases htake

/-- What the effect has is what the screen asks for. -/
theorem Good.taken (good : p.Good) (hs : p.site.screen = some s) : p.site.taken =
    if s.playing ∧ 1 < s.total then
      some ⟨p.site.rounds, s.photos[(s.index + 1) % s.total]?.map PhotoResponse.url⟩
    else none := by
  have holds := good.holds
  unfold Components.Effect.Holds Components.Effect.setup at holds
  rw [hs] at holds
  exact holds

@[simp] theorem commit_screen {screen : Option Screen} : (p.commit screen).site.screen = screen := by
  unfold Page.commit
  dsimp only
  split <;> exact Components.Effect.commit_screen

@[simp] theorem commit_broken {screen : Option Screen} : (p.commit screen).broken = p.broken := by
  unfold Page.commit
  dsimp only
  split <;> rfl

theorem Good.left (good : p.Good) (hs : p.site.screen = none) : p.site.taken = none := by
  have holds := good.holds
  unfold Components.Effect.Holds Components.Effect.setup at holds
  rw [hs] at holds
  exact holds

/-- A commit that runs the effect again cancels what was under way. -/
theorem Good.anew (holds : slides.Holds p.site) (old : ∀ swap ∈ p.loading, swap.round ≤ p.site.rounds)
    {screen : Option Screen} (changed : screen.map slides.deps ≠ p.site.screen.map slides.deps)
    (renders : ∀ s, screen = some s → s.renders = true) : (p.commit screen).Good := by
  have holds : slides.Holds (slides.commit p.site screen) := holds.commit
  unfold Page.commit
  rw [Components.Effect.commit_changed changed] at holds ⊢
  rw [if_neg (Nat.succ_ne_self _)]
  generalize slides.setup (p.site.rounds + 1) screen = taken at holds ⊢
  have earlier : ∀ swap ∈ p.loading, taken ≠ some swap := by
    intro swap hswap h
    have round : swap.round = p.site.rounds + 1 := round_of_holds holds h
    have := old swap hswap
    omega
  refine ⟨holds, renders, fun _ h => h, fun swap hswap => Nat.le_succ_of_le (old swap hswap), ?_,
    fun swap hswap h => absurd h (earlier swap hswap)⟩
  have none : p.loading.countP (fun swap => taken = some swap) = 0 :=
    List.countP_eq_zero.mpr fun swap hswap => by simpa using earlier swap hswap
  unfold Page.pending
  rw [List.countP_append, none]
  cases taken <;> simp

theorem Good.commit (good : p.Good) {screen : Option Screen}
    (renders : ∀ s, screen = some s → s.renders = true) : (p.commit screen).Good := by
  by_cases same : screen.map slides.deps = p.site.screen.map slides.deps
  · unfold Page.commit
    rw [Components.Effect.commit_same same, if_pos rfl]
    exact ⟨good.holds.trans (Components.Effect.setup_congr same.symm), renders, good.current, good.old,
      good.once, good.due⟩
  · exact Good.anew good.holds good.old same renders

theorem Good.render (good : p.Good) (s : Screen) : (p.render s).Good := by
  unfold Page.render
  split
  next renders => exact good.commit fun t ht => Option.some.inj ht ▸ renders
  next =>
    have left : (p.commit none).Good := good.commit nofun
    obtain ⟨holds, renders, current, old, once, due⟩ := left
    exact ⟨holds, renders, current, old, once, due⟩

theorem Good.drop (good : p.Good) {i : Nat} (other : ∀ swap, p.loading[i]? = some swap →
    p.site.taken ≠ some swap) : Good { p with loading := p.loading.eraseIdx i } where
  holds := good.holds
  renders := good.renders
  current := good.current
  old swap hswap := good.old swap ((List.eraseIdx_sublist _ _).subset hswap)
  once := by
    have once := good.once
    unfold Page.pending at once ⊢
    rw [← once, List.countP_append, List.countP_append]
    cases hi : p.loading[i]? with
    | none => rw [List.eraseIdx_of_length_le (List.getElem?_eq_none_iff.mp hi)]
    | some swap =>
      obtain ⟨bound, rfl⟩ := List.getElem?_eq_some_iff.mp hi
      rw [← (List.getElem_cons_eraseIdx_perm bound).countP_eq, List.countP_cons_of_neg]
      simpa using other _ hi
  due swap hswap := good.due swap ((List.eraseIdx_sublist _ _).subset hswap)

theorem Good.fires (good : p.Good) {swap : Swap} (armed : p.armed = some swap)
    (late : p.setAt + slideMs ≤ p.now) : Good { p with armed := none, loading := p.loading ++ [swap] } where
  holds := good.holds
  renders := good.renders
  current := nofun
  old other hother := by
    obtain before | rfl := List.mem_append.mp hother |>.imp_right List.mem_singleton.mp
    · exact good.old other before
    · exact Nat.le_of_eq (round_of_holds good.holds (good.current _ armed))
  once := by
    have once := good.once
    unfold Page.pending at once ⊢
    rw [← once, armed]
    have same : (p.loading ++ [swap]).Perm ([swap] ++ p.loading) := List.perm_append_comm
    exact same.countP_eq _
  due _ _ _ := late

theorem next_ne {index total : Nat} (inRange : index < total) (more : 1 < total) :
    (index + 1) % total ≠ index := by
  obtain less | last := Nat.lt_or_eq_of_le (Nat.succ_le_of_lt inRange)
  · rw [Nat.mod_eq_of_lt less]
    omega
  · rw [show index + 1 = total from last, Nat.mod_self]
    omega

theorem advance_one (more : 1 < s.total) : s.advance 1 = { s with index := (s.index + 1) % s.total } := by
  unfold Screen.advance
  rw [if_neg (by omega)]
  have wraps : ((s.index : Int) + 1 + s.total) % s.total = ((s.index + 1) % s.total : Nat) := by
    rw [Int.add_emod_right]
    rfl
  rw [wraps, Int.toNat_natCast]

theorem advance_renders (step : Int) (renders : s.renders = true) : (s.advance step).renders = true := by
  unfold Screen.advance
  split
  · exact renders
  next some =>
    have bound := Int.emod_lt_of_pos (s.index + step + s.total) (show 0 < (s.total : Int) by omega)
    have nonneg := Int.emod_nonneg (s.index + step + s.total) (show (s.total : Int) ≠ 0 by omega)
    refine Screen.renders_iff.mpr (Or.inr ?_)
    change ((s.index + step + s.total) % s.total : Int).toNat < s.total
    omega

theorem Good.inRange (good : p.Good) (hs : p.site.screen = some s) (some : 0 < s.total) :
    s.index < s.total := by
  have renders := Screen.renders_iff.mp (good.renders s hs)
  omega

/-- The effect only has a swap while the show plays and there is more than one photo. -/
theorem Good.asked (good : p.Good) (hs : p.site.screen = some s) {swap : Swap}
    (h : p.site.taken = some swap) : s.playing = true ∧ 1 < s.total ∧
      swap = ⟨p.site.rounds, s.photos[(s.index + 1) % s.total]?.map PhotoResponse.url⟩ := by
  have taken := good.taken hs
  rw [h] at taken
  split at taken
  next asked => exact ⟨asked.1, asked.2, Option.some.inj taken⟩
  next => cases taken

/-- The swap goes on to the next photo. -/
theorem Good.swaps (good : p.Good) (hs : p.site.screen = some s) {swap : Swap}
    (h : p.site.taken = some swap) {i : Nat} :
    Page.render { p with loading := p.loading.eraseIdx i } (s.advance 1) =
        Page.commit { p with loading := p.loading.eraseIdx i }
          (some { s with index := (s.index + 1) % s.total }) ∧
      (Page.render { p with loading := p.loading.eraseIdx i } (s.advance 1)).Good := by
  obtain ⟨-, more, -⟩ := good.asked hs h
  have renders := advance_renders 1 (good.renders s hs)
  have shown : Page.render { p with loading := p.loading.eraseIdx i } (s.advance 1) =
      Page.commit { p with loading := p.loading.eraseIdx i }
        (some { s with index := (s.index + 1) % s.total }) := by
    rw [Page.render, if_pos renders, advance_one more]
  refine ⟨shown, ?_⟩
  rw [shown]
  refine Good.anew (p := { p with loading := p.loading.eraseIdx i }) good.holds
    (fun swap hswap => good.old swap ((List.eraseIdx_sublist _ _).subset hswap)) ?_ fun t ht => ?_
  · rw [hs]
    intro same
    have index := congrArg Deps.index (Option.some.inj same)
    exact next_ne (good.inRange hs (by omega)) more index
  · obtain rfl := Option.some.inj ht
    rw [← advance_one more]
    exact renders

theorem Good.step (good : p.Good) (event : Event) : (p.step event).Good := by
  unfold Page.step
  split
  next => exact good.render _
  next => exact good.commit nofun
  next => exact good.render _
  next => exact good.render _
  next => exact good.render _
  next ms screen =>
    exact ⟨good.holds, good.renders, good.current, good.old, good.once,
      fun swap hswap h => Nat.le_add_right_of_le (good.due swap hswap h)⟩
  next =>
    split
    next swap armed =>
      split
      next late => exact good.fires armed late
      next => exact good
    next => exact good
  next screen i =>
    split
    next swap s hi hs =>
      dsimp only
      split
      next h => exact (good.swaps hs h).2
      next other =>
        refine good.drop fun swap' hi' h => other ?_
        rw [h, Option.some.inj (hi.symm.trans hi')]
    next none =>
      refine good.drop fun swap hi h => ?_
      cases hs : p.site.screen with
      | some s => exact none swap s hi hs
      | none => cases h.symm.trans (good.left hs)
  next => exact good

theorem good_start : start.Good where
  holds := Components.Effect.holds_empty
  renders := nofun
  current := nofun
  old := nofun
  once := rfl
  due := nofun

theorem run_good (events : List Event) : (run events).Good :=
  List.foldlRecOn events step good_start fun _ good event _ => good.step event

/-- While the show plays and has more than one photo, one swap is under way. There is none otherwise, nor on
a page that has been left. -/
theorem one_swap (events : List Event) : (run events).pending =
    (run events).site.screen.elim 0 fun s => if s.playing = true ∧ 1 < s.total then 1 else 0 := by
  have good := run_good events
  rw [good.once]
  cases hs : (run events).site.screen with
  | none =>
    rw [good.left hs]
    rfl
  | some s =>
    rw [good.taken hs, Option.elim_some]
    split <;> rfl

private def samplePhoto (id : String) : PhotoResponse :=
  ⟨id, 0, 640, 480, ⟨id, 3600, "s"⟩, ⟨id, 3600, "t"⟩⟩

private def sampleAlbum : List PhotoResponse := ["a", "b", "c"].map samplePhoto

private def sampleShow : List Event := [.mount none, .fetched sampleAlbum, .pass 4000, .fires]

theorem one_swap_sample : (run sampleShow).pending = 1 ∧ (run (sampleShow ++ [.unmount])).pending = 0 := by
  have shown : (run sampleShow).site.screen = some ⟨some sampleAlbum, 0, true⟩ := rfl
  have left : (run (sampleShow ++ [.unmount])).site.screen = none := rfl
  refine ⟨?_, ?_⟩
  · rw [one_swap, shown]
    rfl
  · rw [one_swap, left]
    rfl

/-- An image that loads changes nothing where its swap has been cancelled. Otherwise the show goes on. -/
theorem Good.loaded (good : p.Good) {i : Nat} {swap : Swap} (hi : p.loading[i]? = some swap) :
    p.site.taken ≠ some swap ∧ (p.step (.loaded i)).site.screen = p.site.screen ∨
      p.site.taken = some swap ∧ ∃ s, p.site.screen = some s ∧
        (p.step (.loaded i)).site.screen = some { s with index := (s.index + 1) % s.total } := by
  simp only [Page.step, hi]
  cases hs : p.site.screen with
  | none => exact Or.inl ⟨by simp [good.left hs], hs⟩
  | some s =>
    dsimp only
    split
    next own =>
      refine Or.inr ⟨own, s, rfl, ?_⟩
      rw [(good.swaps hs own).1, commit_screen]
    next cancelled => exact Or.inl ⟨cancelled, hs⟩

/-- An image that loads changes nothing on the screen where its swap has been cancelled. Otherwise the screen
goes on to the photo of this image, the next one around, and the one before has been up for four seconds with
nothing done to the show. -/
theorem swap_preloaded (events : List Event) {i : Nat} {swap : Swap}
    (loaded : (run events).loading[i]? = some swap) :
    (run events).site.taken ≠ some swap ∧
        ((run events).step (.loaded i)).site.screen = (run events).site.screen ∨
      (run events).site.taken = some swap ∧ ∃ s photo, (run events).site.screen = some s ∧ s.playing = true ∧
        (run events).setAt + slideMs ≤ (run events).now ∧
        s.photos[(s.index + 1) % s.total]? = some photo ∧ swap.nextUrl = some photo.url ∧
        ((run events).step (.loaded i)).site.screen = some { s with index := (s.index + 1) % s.total } := by
  have good := run_good events
  refine (good.loaded loaded).imp_right ?_
  rintro ⟨h, s, hs, next⟩
  obtain ⟨playing, more, rfl⟩ := good.asked hs h
  have bound : (s.index + 1) % s.total < s.photos.length := Nat.mod_lt _ (by omega)
  refine ⟨h, s, s.photos[(s.index + 1) % s.total], hs, playing, good.due _ (List.mem_of_getElem? loaded) h,
    List.getElem?_eq_getElem bound, ?_, next⟩
  rw [List.getElem?_eq_getElem bound]
  rfl

theorem render_broken (renders : s.renders = true) : (p.render s).broken = p.broken := by
  rw [Page.render, if_pos renders, commit_broken]

theorem Good.unbroken (good : p.Good) {event : Event} (other : ∀ photos, event ≠ .fetched photos) :
    (p.step event).broken = p.broken := by
  unfold Page.step
  split
  next data hs => exact render_broken (by simp [Screen.renders, Nat.eq_zero_or_pos])
  next => exact commit_broken
  next photos s hs => exact absurd rfl (other photos)
  next s hs => exact render_broken (good.renders s hs)
  next hs => exact render_broken (advance_renders _ (good.renders _ hs))
  next => rfl
  next =>
    split
    · split <;> rfl
    · rfl
  next =>
    split
    next s _ hs =>
      dsimp only
      split
      · exact render_broken (advance_renders 1 (good.renders s hs))
      · rfl
    next => rfl
  next => rfl

theorem swap_preloaded_sample :
    (run sampleShow).site.taken ≠ some ⟨2, some (samplePhoto "b").url⟩ ∧
        ((run sampleShow).step (.loaded 0)).site.screen = (run sampleShow).site.screen ∨
      (run sampleShow).site.taken = some ⟨2, some (samplePhoto "b").url⟩ ∧
        ∃ s photo, (run sampleShow).site.screen = some s ∧ s.playing = true ∧ 4000 ≤ (run sampleShow).now ∧
        s.photos[(s.index + 1) % s.total]? = some photo ∧ some (samplePhoto "b").url = some photo.url ∧
        ((run sampleShow).step (.loaded 0)).site.screen = some { s with index := (s.index + 1) % s.total } := by
  have loaded : (run sampleShow).loading[0]? = some ⟨2, some (samplePhoto "b").url⟩ := by decide
  exact swap_preloaded sampleShow loaded

/-- The page breaks only where the album comes back shorter, and not empty, than where the show is. -/
theorem breaks_iff (events : List Event) (event : Event) :
    ((run events).step event).broken = true ↔ (run events).broken = true ∨
      ∃ photos s, event = .fetched photos ∧ (run events).site.screen = some s ∧
        0 < photos.length ∧ photos.length ≤ s.index := by
  have good := run_good events
  generalize run events = p at *
  cases event with
  | fetched photos =>
    cases hs : p.site.screen with
    | none => simp [Page.step, hs]
    | some s =>
      simp only [Page.step, hs, Event.fetched.injEq, Option.some.injEq, exists_and_left, exists_eq_left']
      have fits : Screen.renders { s with data := some photos } = true ↔
          photos.length = 0 ∨ s.index < photos.length := Screen.renders_iff
      by_cases renders : Screen.renders { s with data := some photos } = true
      · rw [render_broken renders]
        have := fits.mp renders
        exact ⟨Or.inl, fun h => h.resolve_right fun short => by omega⟩
      · rw [Page.render, if_neg renders]
        have := mt fits.mpr renders
        exact ⟨fun _ => Or.inr (by omega), fun _ => rfl⟩
  | _ =>
    rw [good.unbroken (by simp)]
    simp

end Page

/-- The events of a show that nobody touches. -/
def Event.unattended : Event → Bool
  | .pass _ | .fires | .loaded _ => true
  | _ => false

namespace Page

variable {p : Page} {s : Screen}

/-- The indices that the events put up, in turn. -/
def putUp (p : Page) : List Event → List Nat
  | [] => []
  | event :: events =>
    let index := (p.step event).site.screen.map Screen.index
    (if index = p.site.screen.map Screen.index then [] else index.toList) ++ putUp (p.step event) events

theorem Good.unattended (good : p.Good) (hs : p.site.screen = some s) {event : Event}
    (h : event.unattended = true) : (p.step event).site.screen = some s ∨
      1 < s.total ∧ (p.step event).site.screen = some { s with index := (s.index + 1) % s.total } := by
  cases event with
  | pass ms =>
    left
    simpa only [Page.step] using hs
  | fires =>
    left
    simp only [Page.step]
    split
    · split <;> exact hs
    · exact hs
  | loaded i =>
    cases hi : p.loading[i]? with
    | none =>
      left
      simpa only [Page.step, hi] using hs
    | some swap =>
      refine (good.loaded hi).imp (fun same => same.2.trans hs) ?_
      rintro ⟨taken, t, ht, next⟩
      obtain rfl := Option.some.inj (hs.symm.trans ht)
      exact ⟨(good.asked hs taken).2.1, next⟩
  | _ => cases h

/-- The swap of the show waits for its time, after which its image loads, or its image is loading. The photo
at `next` is put up when that is there. -/
def GoesOn (p : Page) (next : Nat) : Prop :=
  ∃ swap, p.site.taken = some swap ∧
    (p.armed = some swap ∧ (p.setAt + slideMs ≤ p.now →
        (p.step .fires).site = p.site ∧ swap ∈ (p.step .fires).loading) ∨
      swap ∈ p.loading) ∧
    ∀ i, p.loading[i]? = some swap → p.putUp [.loaded i] = [next]

theorem Good.goesOn (good : p.Good) (hs : p.site.screen = some s) (playing : s.playing = true)
    (more : 1 < s.total) : p.GoesOn ((s.index + 1) % s.total) := by
  have once := good.once
  rw [good.taken hs, if_pos (And.intro playing more)] at once
  obtain ⟨swap, under, own⟩ := List.countP_pos_iff.mp (Nat.lt_of_lt_of_eq Nat.one_pos once.symm)
  have own : p.site.taken = some swap := of_decide_eq_true own
  refine ⟨swap, own, ?_, fun i hi => ?_⟩
  · refine (List.mem_append.mp under).imp_left fun armed => ?_
    have armed : p.armed = some swap := Option.mem_toList.mp armed
    refine ⟨armed, fun late => ?_⟩
    simp [Page.step, armed, late]
  · obtain ⟨cancelled, -⟩ | ⟨-, t, ht, next⟩ := good.loaded hi
    · exact absurd own cancelled
    · obtain rfl := Option.some.inj (hs.symm.trans ht)
      have changed := next_ne (good.inRange hs (by omega)) more
      simp [Page.putUp, next, hs, changed]

/-- Only the place in the album changes while nobody touches the show. -/
theorem Good.keeps (good : p.Good) {index : Nat} (hs : p.site.screen = some { s with index := index })
    {events : List Event} (unattended : ∀ event ∈ events, event.unattended = true) :
    (events.foldl Page.step p).Good ∧
      ∃ index, (events.foldl Page.step p).site.screen = some { s with index := index } := by
  induction events generalizing p index with
  | nil => exact ⟨good, index, hs⟩
  | cons event events ih =>
    obtain ⟨first, rest⟩ := List.forall_mem_cons.mp unattended
    obtain same | ⟨-, next⟩ := good.unattended hs first
    · exact ih (good.step event) same rest
    · exact ih (good.step event) next rest

/-- A show that nobody touches puts up the next photo each time, around and around. -/
theorem Good.putUp (good : p.Good) (hs : p.site.screen = some s) {events : List Event}
    (unattended : ∀ event ∈ events, event.unattended = true) :
    ∃ n, p.putUp events = (List.range n).map fun k => (s.index + 1 + k) % s.total := by
  induction events generalizing p s with
  | nil => exact ⟨0, rfl⟩
  | cons event events ih =>
    obtain ⟨first, rest⟩ := List.forall_mem_cons.mp unattended
    unfold Page.putUp
    obtain same | ⟨more, next⟩ := good.unattended hs first
    · obtain ⟨n, shown⟩ := ih (good.step event) same rest
      exact ⟨n, by simp [same, hs, shown]⟩
    · obtain ⟨n, shown⟩ := ih (good.step event) next rest
      refine ⟨n + 1, ?_⟩
      have changed := next_ne (good.inRange hs (by omega)) more
      simp only [next, hs, Option.map_some, Option.some.injEq, changed, ↓reduceIte, shown, Option.toList_some,
        List.range_succ_eq_map, List.map_cons, List.map_map, Nat.add_zero, List.singleton_append,
        List.cons.injEq, true_and]
      refine List.map_congr_left fun k _ => ?_
      change ((s.index + 1) % s.total + 1 + k) % s.total = (s.index + 1 + (k + 1)) % s.total
      rw [Nat.add_assoc, Nat.mod_add_mod, Nat.add_comm 1 k]

/-- Numbers in a row have all the remainders, each once. -/
theorem remainders_perm (start total : Nat) :
    ((List.range total).map fun k => (start + k) % total).Perm (List.range total) := by
  obtain rfl | positive := Nat.eq_zero_or_pos total
  · exact List.Perm.refl _
  have nodup : ((List.range total).map fun k => (start + k) % total).Nodup := by
    refine List.nodup_range.map_on fun k hk l hl same => ?_
    rw [List.mem_range] at hk hl
    have residue := Nat.ModEq.add_left_cancel' start same
    exact Nat.ModEq.eq_of_lt_of_lt residue hk hl
  refine (List.subperm_of_subset nodup fun i hi => ?_).perm_of_length_le (by simp)
  obtain ⟨k, -, rfl⟩ := List.mem_map.mp hi
  exact List.mem_range.mpr (Nat.mod_lt _ positive)

/-- As many photos in a row as the album has are all of its photos, each once. -/
theorem Good.round (good : p.Good) (hs : p.site.screen = some s) {later : List Event}
    (unattended : ∀ event ∈ later, event.unattended = true) {start : Nat}
    (round : start + s.total ≤ (p.putUp later).length) :
    (((p.putUp later).drop start).take s.total).Perm (List.range s.total) := by
  obtain ⟨n, shown⟩ := good.putUp hs unattended
  rw [shown] at round ⊢
  rw [List.length_map, List.length_range] at round
  have window : (((List.range n).map fun k => (s.index + 1 + k) % s.total).drop start).take s.total =
      (List.range s.total).map fun k => (s.index + 1 + start + k) % s.total := by
    refine List.ext_getElem (by simp; omega) fun k _ _ => ?_
    simp [Nat.add_assoc]
  rw [window]
  exact remainders_perm _ _

/-- A show that nobody touches puts up every photo of the album once in each round. While it plays with more
than one photo, it always goes on to the next one. -/
theorem round_shows_all (events : List Event) {s : Screen} (hs : (run events).site.screen = some s)
    {later : List Event} (unattended : ∀ event ∈ later, event.unattended = true) :
    (∀ start, start + s.total ≤ ((run events).putUp later).length →
      ((((run events).putUp later).drop start).take s.total).Perm (List.range s.total)) ∧
    (s.playing = true → 1 < s.total → ∃ index,
      (run (events ++ later)).site.screen = some { s with index := index } ∧
        (run (events ++ later)).GoesOn ((index + 1) % s.total)) := by
  have good := run_good events
  refine ⟨fun start round => good.round hs unattended round, fun playing more => ?_⟩
  obtain ⟨good', index, hs'⟩ := good.keeps hs unattended
  rw [run, List.foldl_append]
  exact ⟨index, hs', good'.goesOn hs' playing more⟩

private def sampleTurns : List Event :=
  (List.replicate 4 [Event.loaded 0, .pass 4000, .fires]).flatten

theorem round_shows_all_sample :
    ((((run sampleShow).putUp sampleTurns).drop 1).take 3).Perm (List.range 3) ∧
      ∃ index, (run (sampleShow ++ sampleTurns)).GoesOn ((index + 1) % 3) := by
  have unattended : ∀ event ∈ sampleTurns, event.unattended = true := by decide
  obtain ⟨round, goesOn⟩ := round_shows_all sampleShow (s := ⟨some sampleAlbum, 0, true⟩) rfl unattended
  obtain ⟨index, -, next⟩ := goesOn rfl (by decide)
  exact ⟨round 1 (by decide), index, next⟩

end Page

end Slideshow

end ItalyTrip
