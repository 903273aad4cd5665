import Shiftgram.FriendStore
import Shiftgram.ImageTransfer
import Shiftgram.Runs

/- The photos in the contact list and in the conversation list. `cellForRowAt` takes a cell, writes the
   name into it and starts the download of the photo; the completion writes the image into that cell,
   whichever row it serves by then. A cell that is scrolled off is handed out for another row, and
   keeps the image it has.

   The photos are right in every run in which a download that completes for a visible cell brings the
   photo of the row the cell serves, or leaves one under way that will; any other completion spoils
   the row for as long as the cell serves it (`own_photos`).

   Assumed: every download that completes brings the object of its path, and an object makes one image
   for good. A download that fails calls nothing, and so does not complete here. The two lists differ
   in the attributes a row is made of, and in that a conversation's photo is unwrapped. -/
namespace Shiftgram

namespace RowPhotos

/-- What `cellForRowAt` reads of a friend or of a conversation. -/
structure Row where
  name : Option String
  photo : Option String
  deriving DecidableEq, Repr

/-- A record of `Conversation` with the attributes that its row shows. -/
structure ConversationRecord where
  name : Option String
  photo : Option String
  deriving DecidableEq, Repr

/-- What a screen lists. -/
inductive Listing
  | contacts (friends : List FriendModel)
  | conversations (records : List ConversationRecord)
  deriving DecidableEq, Repr

def ContactViewController.row (friend : FriendModel) : Row := ⟨some friend.username, some friend.photo⟩

def ConversationViewController.row (conversation : ConversationRecord) : Row :=
  ⟨conversation.name, conversation.photo⟩

def Listing.rows : Listing → List Row
  | contacts friends => friends.map ContactViewController.row
  | conversations records => records.map ConversationViewController.row

structure Cell where
  /-- The row it is visible in. Without one it can be handed out again. -/
  row : Option Nat
  nameLabel : Option String
  imageView : Option UIImage
  deriving DecidableEq

structure Download where
  cell : Nat
  path : String
  deriving DecidableEq, Repr

/-- A list on the screen. Cells are known by their positions. -/
structure State where
  rows : List Row
  cells : List Cell
  downloads : List Download
  deriving DecidableEq

def State.init (listing : Listing) : State := ⟨listing.rows, [], []⟩

/-- `dequeueReusableCell`: a cell that is there, or a new one. -/
def dequeue (cells : List Cell) : Option Nat → Nat × List Cell
  | some cell => (cell, cells)
  | none => (cells.length, cells ++ [⟨none, none, none⟩])

/-- `tableView(_:cellForRowAt:)`, which traps on a conversation without a photo. -/
def cellForRowAt (s : State) (row : Nat) (reused : Option Nat) : Option State := do
  let r ← s.rows[row]?
  let (cell, cells) := dequeue s.cells reused
  let path ← r.photo
  some { s with
    cells := cells.modify cell fun c => { c with row := some row, nameLabel := r.name }
    downloads := s.downloads ++ [⟨cell, path⟩] }

inductive Event
  | cellForRow (row : Nat) (reused : Option Nat)
  /-- A cell is scrolled off. -/
  | endDisplaying (cell : Nat)
  /-- The list is replaced and shown anew, by a sync. -/
  | reloadData (listing : Listing)
  | downloaded (d : Download)
  deriving DecidableEq, Repr

-- `UIImage(data:)` of the object with the path
variable (image : String → Option UIImage)

def step (s : State) : Event → Option State
  | .cellForRow row reused => cellForRowAt s row reused
  | .endDisplaying cell => some { s with cells := s.cells.modify cell fun c => { c with row := none } }
  | .reloadData listing =>
    some { s with rows := listing.rows, cells := s.cells.map fun c => { c with row := none } }
  | .downloaded d =>
    some { s with
      cells := s.cells.modify d.cell fun c => { c with imageView := image d.path }
      downloads := s.downloads.erase d }

/-- Rows that are there are asked for, cells without a row are handed out, and what completes is under
    way. -/
def Enabled (s : State) : Event → Prop
  | .cellForRow row reused => row < s.rows.length ∧
      ∀ cell, reused = some cell → (s.cells[cell]?).map (·.row) = some none
  | .downloaded d => d ∈ s.downloads
  | .endDisplaying _ | .reloadData _ => True

instance (s : State) (e : Event) : Decidable (Enabled s e) :=
  match e with
  | .cellForRow row none =>
    decidable_of_iff (row < s.rows.length) ⟨fun h => ⟨h, fun _ hc => nomatch hc⟩, And.left⟩
  | .cellForRow row (some cell) =>
    decidable_of_iff (row < s.rows.length ∧ (s.cells[cell]?).map (·.row) = some none)
      (and_congr_right fun _ => ⟨fun h _ hc => Option.some.inj hc ▸ h, fun h => h cell rfl⟩)
  | .downloaded d => inferInstanceAs (Decidable (d ∈ s.downloads))
  | .endDisplaying _ | .reloadData _ => isTrue trivial

/-- The path of the photo of a row. -/
def State.photo (s : State) (row : Nat) : Option String := s.rows[row]?.bind (·.photo)

/-- The cell at the position is visible in the row, whose photo has the path. -/
def State.Serves (s : State) (i : Nat) (cell : Cell) (path : String) : Prop :=
  s.cells[i]? = some cell ∧ ∃ row, cell.row = some row ∧ s.photo row = some path

/-- Once nothing is under way, every visible row shows its own photo. -/
def Shown (s : State) : Prop :=
  s.downloads = [] → ∀ (i : Nat) (cell : Cell), s.cells[i]? = some cell → cell.row ≠ none →
    ∃ path, s.Serves i cell path ∧ cell.imageView = image path

/-- Every visible row shows its own photo, or waits for it. -/
def Due (s : State) : Prop :=
  ∀ i cell path, s.Serves i cell path → cell.imageView = image path ∨
    ∃ d ∈ s.downloads, d.cell = i ∧ image d.path = image path

/-- A download that completes for a visible cell brings the photo of its row, or leaves one under way
    that will. -/
def InTime (s : State) : Event → Prop
  | .downloaded d => ∀ cell path, s.Serves d.cell cell path → image d.path = image path ∨
      ∃ d' ∈ s.downloads.erase d, d'.cell = d.cell ∧ image d'.path = image path
  | .cellForRow _ _ | .endDisplaying _ | .reloadData _ => True

/-- Visible cells serve rows that are there, under their names. -/
def Listed (s : State) : Prop :=
  ∀ (i : Nat) (cell : Cell) (row : Nat), s.cells[i]? = some cell → cell.row = some row →
    ∃ r : Row, s.rows[row]? = some r ∧ cell.nameLabel = r.name ∧ r.photo ≠ none

variable {image} {s s' : State}

/-! ## The steps -/

/-- The cells other than the one that is handed out stay. -/
theorem dequeue_spec (cells : List Cell) (reused : Option Nat) {j : Nat}
    (hj : j ≠ (dequeue cells reused).1) : (dequeue cells reused).2[j]? = cells[j]? := by
  cases reused with
  | some i => rfl
  | none => exact Swift.getElem?_concat_of_ne hj

/-- A cell is in the row, under its name; the others stay as they are. -/
theorem cellForRowAt_spec {row : Nat} {reused : Option Nat}
    (hs' : cellForRowAt s row reused = some s') :
    ∃ r path i, s.rows[row]? = some r ∧ r.photo = some path ∧ s'.rows = s.rows ∧
      s'.downloads = s.downloads ++ [⟨i, path⟩] ∧
      ∀ j cell, s'.cells[j]? = some cell →
        (j = i ∧ cell.row = some row ∧ cell.nameLabel = r.name) ∨ s.cells[j]? = some cell := by
  obtain ⟨r, hr, hs'⟩ := Option.bind_eq_some_iff.mp hs'
  obtain ⟨path, hpath, hs'⟩ := Option.bind_eq_some_iff.mp hs'
  obtain rfl := Option.some.inj hs'
  refine ⟨r, path, (dequeue s.cells reused).1, hr, hpath, rfl, rfl, fun j cell hcell => ?_⟩
  have hcell : ((dequeue s.cells reused).2.modify (dequeue s.cells reused).1 fun c =>
      { c with row := some row, nameLabel := r.name })[j]? = some cell := hcell
  obtain ⟨old, hold, rfl⟩ := Swift.getElem?_modify_eq_some.mp hcell
  by_cases hj : j = (dequeue s.cells reused).1
  · rw [if_pos hj]
    exact .inl ⟨hj, rfl, rfl⟩
  · rw [if_neg hj, ← dequeue_spec s.cells reused hj]
    exact .inr hold

/-- A cell that is still visible after another one is scrolled off has not changed. -/
theorem visible_of_endDisplaying {i j : Nat} {cell : Cell} {row : Nat}
    (h : (s.cells.modify i fun c => { c with row := none })[j]? = some cell)
    (hrow : cell.row = some row) : s.cells[j]? = some cell := by
  obtain ⟨old, hold, hcell⟩ := Swift.getElem?_modify_eq_some.mp h
  split at hcell
  · rw [hcell] at hrow
    cases hrow
  · rw [hold, hcell]

theorem listed_step {e : Event} (h : Listed s) (hs' : step image s e = some s') : Listed s' := by
  intro j cell' row' hcell' hrow'
  cases e with
  | cellForRow row reused =>
    obtain ⟨r, path, i, hr, hpath, hrows, -, hcells⟩ := cellForRowAt_spec hs'
    rw [hrows]
    rcases hcells j cell' hcell' with ⟨-, hrow, hname⟩ | hold
    · obtain rfl : row = row' := Option.some.inj (hrow.symm.trans hrow')
      exact ⟨r, hr, hname, by rw [hpath]; exact Option.some_ne_none path⟩
    · exact h j cell' row' hold hrow'
  | endDisplaying i =>
    obtain rfl := Option.some.inj hs'
    exact h j cell' row' (visible_of_endDisplaying hcell' hrow') hrow'
  | reloadData listing =>
    obtain rfl := Option.some.inj hs'
    obtain ⟨cell, -, rfl⟩ := List.mem_map.mp (List.mem_of_getElem? hcell')
    cases hrow'
  | downloaded d =>
    obtain rfl := Option.some.inj hs'
    obtain ⟨cell, hcell, rfl⟩ := Swift.getElem?_modify_eq_some.mp hcell'
    by_cases hj : j = d.cell
    · rw [if_pos hj] at hrow' ⊢
      exact h j cell row' hcell hrow'
    · rw [if_neg hj] at hrow' ⊢
      exact h j cell row' hcell hrow'

/-! ## What a completion does -/

/-- The photo a row waits for is still under way when another download has completed. -/
theorem waits_of_waits {i : Nat} {d : Download} {path : String} (hi : i ≠ d.cell)
    (h : ∃ d' ∈ s.downloads, d'.cell = i ∧ image d'.path = image path) :
    ∃ d' ∈ s.downloads.erase d, d'.cell = i ∧ image d'.path = image path := by
  obtain ⟨d', hd', hcell, hpath⟩ := h
  have hne : d' ≠ d := by
    rintro rfl
    exact hi hcell.symm
  exact ⟨d', (List.mem_erase_of_ne hne).mpr hd', hcell, hpath⟩

/-- After a completion the cells serve what they served, and one of them has another image. -/
theorem serves_downloaded {i : Nat} {d : Download} {cell' : Cell} {path : String}
    (hs' : step image s (.downloaded d) = some s') :
    s'.Serves i cell' path ↔ ∃ cell, s.Serves i cell path ∧
      cell' = if i = d.cell then { cell with imageView := image d.path } else cell := by
  obtain rfl := Option.some.inj hs'
  refine ⟨?_, ?_⟩
  · intro h
    obtain ⟨hcell', row, hrow, hphoto⟩ := h
    obtain ⟨cell, hcell, rfl⟩ := Swift.getElem?_modify_eq_some.mp hcell'
    refine ⟨cell, ⟨hcell, row, ?_, hphoto⟩, rfl⟩
    split at hrow <;> exact hrow
  · intro h
    obtain ⟨cell, ⟨hcell, row, hrow, hphoto⟩, rfl⟩ := h
    refine ⟨Swift.getElem?_modify_eq_some.mpr ⟨cell, hcell, rfl⟩, row, ?_, hphoto⟩
    split <;> exact hrow

/-- A completion keeps all rows served or waiting exactly if it is in time. -/
theorem due_downloaded {d : Download} (hs' : step image s (.downloaded d) = some s')
    (hdue : Due image s) : Due image s' ↔ InTime image s (.downloaded d) := by
  have hdownloads : s'.downloads = s.downloads.erase d := by
    obtain rfl := Option.some.inj hs'
    rfl
  unfold Due
  rw [hdownloads]
  refine ⟨?_, ?_⟩
  · intro hdue' cell path hserves
    have hnow := hdue' d.cell _ path ((serves_downloaded hs').mpr ⟨cell, hserves, rfl⟩)
    rwa [if_pos rfl] at hnow
  · intro htime i cell' path hserves'
    obtain ⟨cell, hserves, rfl⟩ := (serves_downloaded hs').mp hserves'
    by_cases hi : i = d.cell
    · -- this cell is written, whichever row it serves
      rw [if_pos hi, hi]
      exact htime cell path (hi ▸ hserves)
    · rw [if_neg hi]
      exact (hdue i cell path hserves).imp_right (waits_of_waits hi)

/-- The cells that a new row, or a row that is left, does not concern. -/
theorem due_of_serves (hdue : Due image s) (hdownloads : s.downloads ⊆ s'.downloads)
    (hserves : ∀ i cell path, s'.Serves i cell path → s.Serves i cell path ∨
      ∃ d ∈ s'.downloads, d.cell = i ∧ image d.path = image path) : Due image s' := by
  intro i cell path h
  rcases hserves i cell path h with hold | hnew
  · refine (hdue i cell path hold).imp_right fun hwaits => ?_
    obtain ⟨d, hd, hrest⟩ := hwaits
    exact ⟨d, hdownloads hd, hrest⟩
  · exact .inr hnew

theorem due_step {e : Event} (hs' : step image s e = some s') (hdue : Due image s) :
    Due image s' ↔ InTime image s e := by
  cases e with
  | cellForRow row reused =>
    obtain ⟨r, path, i, hr, hpath, hrows, hdownloads, hcells⟩ := cellForRowAt_spec hs'
    refine iff_of_true (due_of_serves hdue ?_ ?_) trivial
    · rw [hdownloads]
      exact List.subset_append_left _ _
    · intro j cell path' h
      obtain ⟨hcell, row', hrow', hphoto'⟩ := h
      unfold State.photo at hphoto'
      rw [hrows] at hphoto'
      rcases hcells j cell hcell with ⟨hji, hrow, -⟩ | hold
      · -- the cell that was handed out waits for the download it started
        obtain rfl : row = row' := Option.some.inj (hrow.symm.trans hrow')
        rw [hr, Option.bind_some, hpath] at hphoto'
        obtain rfl := Option.some.inj hphoto'
        refine .inr ⟨⟨i, path⟩, ?_, hji.symm, rfl⟩
        rw [hdownloads]
        exact List.mem_append_right _ (List.mem_singleton_self _)
      · exact .inl ⟨hold, row', hrow', hphoto'⟩
  | endDisplaying i =>
    obtain rfl := Option.some.inj hs'
    refine iff_of_true (due_of_serves hdue (List.Subset.refl _) ?_) trivial
    intro j cell path h
    obtain ⟨hcell, row, hrow, hphoto⟩ := h
    exact .inl ⟨visible_of_endDisplaying hcell hrow, row, hrow, hphoto⟩
  | reloadData listing =>
    obtain rfl := Option.some.inj hs'
    refine iff_of_true ?_ trivial
    intro j cell' path h
    obtain ⟨hcell', row, hrow, -⟩ := h
    obtain ⟨cell, -, rfl⟩ := List.mem_map.mp (List.mem_of_getElem? hcell')
    cases hrow
  | downloaded d => exact due_downloaded hs' hdue

/-! ## Runs -/

theorem serves_of_listed (h : Listed s) {i : Nat} {cell : Cell} (hcell : s.cells[i]? = some cell)
    (hrow : cell.row ≠ none) : ∃ path, s.Serves i cell path := by
  obtain ⟨row, hrow⟩ := Option.ne_none_iff_exists'.mp hrow
  obtain ⟨r, hr, -, hphoto⟩ := h i cell row hcell hrow
  obtain ⟨path, hpath⟩ := Option.ne_none_iff_exists'.mp hphoto
  refine ⟨path, hcell, row, hrow, ?_⟩
  rw [State.photo, hr, Option.bind_some, hpath]

/-- With nothing under way, no row waits. -/
theorem shown_iff_due (h : Listed s) (hidle : s.downloads = []) : Shown image s ↔ Due image s := by
  unfold Shown Due
  rw [hidle]
  refine ⟨?_, ?_⟩
  · intro hshown i cell path hserves
    obtain ⟨hcell, row, hrow, hphoto⟩ := hserves
    obtain ⟨path', ⟨-, row', hrow', hphoto'⟩, himage⟩ := hshown rfl i cell hcell (by simp [hrow])
    obtain rfl : row = row' := Option.some.inj (hrow.symm.trans hrow')
    obtain rfl : path = path' := Option.some.inj (hphoto.symm.trans hphoto')
    exact .inl himage
  · intro hdue _ i cell hcell hrow
    obtain ⟨path, hserves⟩ := serves_of_listed h hcell hrow
    refine ⟨path, hserves, (hdue i cell path hserves).resolve_right ?_⟩
    intro hwaits
    obtain ⟨d, hd, -⟩ := hwaits
    cases hd

theorem shown_of_due (h : Listed s) (hdue : Due image s) : Shown image s :=
  fun hidle => (shown_iff_due h hidle).mpr hdue hidle

/-- A row that neither shows its photo nor waits for it does not get it by a completion. -/
theorem due_of_downloaded {d : Download} (hd : d ∈ s.downloads)
    (hs' : step image s (.downloaded d) = some s') (hdue' : Due image s') : Due image s := by
  intro i cell path hserves
  have hdownloads : s'.downloads ⊆ s.downloads := by
    obtain rfl := Option.some.inj hs'
    exact List.erase_subset
  rcases hdue' i _ path ((serves_downloaded hs').mpr ⟨cell, hserves, rfl⟩) with himage | hwaits
  · by_cases hi : i = d.cell
    · rw [if_pos hi] at himage
      exact .inr ⟨d, hd, hi.symm, himage⟩
    · rw [if_neg hi] at himage
      exact .inl himage
  · obtain ⟨d', hd', hrest⟩ := hwaits
    exact .inr ⟨d', hdownloads hd', hrest⟩

/-- All downloads under way can complete, and do not mend a row. -/
theorem settles (image : String → Option UIImage) (s : State) :
    ∃ t, Runs.exec (step image) s (s.downloads.map .downloaded) = some t ∧
    Runs.Along (step image) Enabled s (s.downloads.map .downloaded) ∧ t.downloads = [] ∧
      (Due image t → Due image s) := by
  -- they complete in the order in which they were started, each taking itself off the list
  generalize hds : s.downloads = ds
  induction ds generalizing s with
  | nil => exact ⟨s, rfl, trivial, hds, id⟩
  | cons d ds ih =>
    have hd : d ∈ s.downloads := by
      rw [hds]
      exact List.mem_cons_self
    obtain ⟨s', hs'⟩ : ∃ s', step image s (.downloaded d) = some s' := ⟨_, rfl⟩
    have hrest : s'.downloads = ds := by
      obtain rfl := Option.some.inj hs'
      show s.downloads.erase d = ds
      rw [hds, List.erase_cons_head]
    obtain ⟨t, ht, henabled, hidle, hdue⟩ := ih s' hrest
    refine ⟨t, ?_, ⟨hd, fun u hu => ?_⟩, hidle, fun h => due_of_downloaded hd hs' (hdue h)⟩
    · rw [List.map_cons, Runs.exec_cons, hs', Option.bind_some, ht]
    · obtain rfl : s' = u := Option.some.inj (hs'.symm.trans hu)
      exact henabled

theorem listed_init (listing : Listing) : Listed (State.init listing) := by
  intro i cell row hcell
  cases hcell

theorem due_init (listing : Listing) : Due image (State.init listing) := by
  intro i cell path h
  cases h.1

/-- A run has all rows served or waiting at all times exactly if every completion is in time. -/
theorem due_iff_inTime {listing : Listing} {events : List Event}
    (h : Runs.Along (step image) Enabled (State.init listing) events) :
    Runs.Throughout (step image) (Due image) (State.init listing) events ↔
      Runs.Along (step image) (InTime image) (State.init listing) events := by
  refine Runs.throughout_iff_along_trap (I := Listed) (fun s e s' hI _ hs' => ?_)
    (fun s e _ _ htrap => ?_) (listed_init listing) (due_init listing) h
  · exact ⟨listed_step hI hs', due_step hs'⟩
  · cases e with
    | cellForRow row reused => trivial
    | endDisplaying i => cases htrap
    | reloadData listing => cases htrap
    | downloaded d => cases htrap

/-- Where every completion is in time, every visible row shows its own photo once nothing is under way.
    Any other run can be stopped so that, when what is under way then has completed, a visible row
    does not. -/
theorem own_photos (image : String → Option UIImage) (listing : Listing)
    (run : Runs.Schedule (step image) Enabled (State.init listing)) :
    (Runs.Along (step image) (InTime image) (State.init listing) run.events →
      Runs.Throughout (step image) (Shown image) (State.init listing) run.events) ∧
    (¬ Runs.Along (step image) (InTime image) (State.init listing) run.events →
      ∃ n, ∃ downloads : List Download, Runs.Along (step image) Enabled (State.init listing)
          (run.events.take n ++ downloads.map .downloaded) ∧
        ¬ Runs.Throughout (step image) (Shown image) (State.init listing)
          (run.events.take n ++ downloads.map .downloaded)) := by
  have hkeep : ∀ s e s', Listed s → Enabled s e → step image s e = some s' → Listed s' :=
    fun s e s' h _ => listed_step h
  rw [← due_iff_inTime run.enabled]
  refine ⟨Runs.throughout_imp hkeep (fun s => shown_of_due) (listed_init listing) run.enabled, ?_⟩
  intro hnot
  -- the run is stopped where a row is spoiled, and what is under way then completes
  obtain ⟨n, s, hs, hspoiled⟩ := Runs.exists_of_not_throughout hnot
  obtain ⟨t, ht, henabled, hidle, hmends⟩ := settles image s
  have hrun : Runs.Along (step image) Enabled (State.init listing)
      (run.events.take n ++ s.downloads.map .downloaded) := by
    refine Runs.along_append (Runs.along_take run.enabled n) fun u hu => ?_
    obtain rfl : s = u := Option.some.inj (hs.symm.trans hu)
    exact henabled
  have hlast : Runs.exec (step image) (State.init listing)
      (run.events.take n ++ s.downloads.map .downloaded) = some t := by
    rw [Runs.exec_append, hs, Option.bind_some, ht]
  refine ⟨n, s.downloads, hrun, fun hshown => hspoiled (hmends ?_)⟩
  have hlisted : Listed t := Runs.throughout_last (Runs.throughout_ok
    (fun s e hI he s' => hkeep s e s' hI he) (fun _ hI => hI) (listed_init listing) hrun) hlast
  exact (shown_iff_due hlisted hidle).mp (Runs.throughout_last hshown hlast)

/-- Two friends, and their photos. -/
def twoFriends : Listing :=
  .contacts [⟨3, "3.jpg", "ann", "+3", "en"⟩, ⟨4, "4.jpg", "bo", "+4", "en"⟩]

def photos : String → Option UIImage := fun path => some ⟨some (if path = "3.jpg" then [3] else [4])⟩

/-- The cell of the first row is scrolled off and handed out for the second, whose photo comes first. -/
def reusedCell : List Event :=
  [.cellForRow 0 none, .endDisplaying 0, .cellForRow 1 (some 0), .downloaded ⟨0, "4.jpg"⟩,
    .downloaded ⟨0, "3.jpg"⟩]

/-- The second row ends with the photo of the first. -/
theorem reusedCell_mixes : Runs.Along (step photos) Enabled (State.init twoFriends) reusedCell ∧
    Runs.exec (step photos) (State.init twoFriends) reusedCell =
      some ⟨twoFriends.rows, [⟨some 1, some "bo", photos "3.jpg"⟩], []⟩ ∧
    ¬ Runs.Throughout (step photos) (Shown photos) (State.init twoFriends) reusedCell := by
  have hlast : Runs.exec (step photos) (State.init twoFriends) reusedCell =
      some ⟨twoFriends.rows, [⟨some 1, some "bo", photos "3.jpg"⟩], []⟩ := by decide
  refine ⟨by decide, hlast, fun h => ?_⟩
  obtain ⟨path, ⟨-, row, hrow, hphoto⟩, himage⟩ := Runs.throughout_last h hlast rfl 0 _ rfl (by simp)
  obtain rfl := Option.some.inj hrow
  obtain rfl := Option.some.inj hphoto
  exact absurd himage (by decide)

end RowPhotos

end Shiftgram
