import Shiftgram.DataManagers
import Shiftgram.Runs

/- The dialling code on the phone screen. The picker holds the selected row and the label the code,
   which becomes the prefix of the number that is registered. A selection sets the label to the code of
   its row; the answer to `getPhones`, which the screen asks for whenever it appears, sets it to the
   code of the first row, and the picker keeps its selection.

   `matches_iff`: the label is that of the selected row throughout a run exactly if at every answer the
   selected row has the code of the first.

   Assumed of the picker: `reloadAllComponents` keeps the selected row, cut to the new number of rows,
   and does not call its delegate. -/
namespace Shiftgram

namespace DialCode

/-- The phone screen. -/
structure State where
  phones : List Phone
  /-- `codeLabel.text` -/
  codeLabel : Option String
  /-- `phonePicker.selectedRow(inComponent: 0)` -/
  selectedRow : Nat
  /-- The answers of `getPhones` that are to come. -/
  requests : Nat
  deriving DecidableEq, Repr

def State.init (codeLabel : Option String) : State := ⟨[], codeLabel, 0, 0⟩

/-- The selected row after `reloadAllComponents`. -/
def reloadAllComponents (selectedRow rows : Nat) : Nat := min selectedRow (rows - 1)

/-- The completion of `getPhones`. -/
def received (s : State) (phones : List Phone) : State :=
  { s with
    phones
    codeLabel := phones.head?.map (·.code)
    selectedRow := reloadAllComponents s.selectedRow phones.length }

/-- The number that `prepare(for:sender:)` hands on. -/
def phone (s : State) (numberTextField : String) : Option String :=
  s.codeLabel.map fun code => code ++ numberTextField

inductive Event
  | viewDidAppear
  | answered (response : DataResponse)
  | didSelectRow (row : Nat)

def step (s : State) : Event → Option State
  | .viewDidAppear => some { s with requests := s.requests + 1 }
  | .answered response =>
    (PhoneDataManager.getPhones response).map fun calls =>
      calls.foldl received { s with requests := s.requests - 1 }
  | .didSelectRow row => do
    let phone ← s.phones[row]?
    some { s with codeLabel := some phone.code, selectedRow := row }

def Enabled (s : State) : Event → Prop
  | .viewDidAppear => True
  | .answered _ => 0 < s.requests
  | .didSelectRow row => row < s.phones.length

instance (s : State) (e : Event) : Decidable (Enabled s e) :=
  match e with
  | .viewDidAppear => isTrue trivial
  | .answered _ => inferInstanceAs (Decidable (0 < s.requests))
  | .didSelectRow row => inferInstanceAs (Decidable (row < s.phones.length))

/-- The label has the code of the selected row, if there are rows. -/
def Matches (s : State) : Prop :=
  s.phones ≠ [] → ∃ phone, s.phones[s.selectedRow]? = some phone ∧ s.codeLabel = some phone.code

/-- In a list that is received the row that is selected then has the code of the first. -/
def Agrees (s : State) : Event → Prop
  | .answered response => ∀ phones, PhoneDataManager.getPhones response = some [phones] →
      (phones[reloadAllComponents s.selectedRow phones.length]?).map (·.code) =
        phones.head?.map (·.code)
  | .viewDidAppear | .didSelectRow _ => True

variable {s s' : State}

/-- In a list that is not empty the selection stays inside. -/
theorem reloadAllComponents_lt (selectedRow : Nat) {phones : List Phone} (h : phones ≠ []) :
    reloadAllComponents selectedRow phones.length < phones.length := by
  have := List.length_pos_iff.mpr h
  unfold reloadAllComponents
  omega

theorem matches_received (s : State) (phones : List Phone) :
    Matches (received s phones) ↔
      (phones[reloadAllComponents s.selectedRow phones.length]?).map (·.code) =
        phones.head?.map (·.code) := by
  unfold Matches received
  by_cases hnil : phones = []
  · simp [hnil]
  · have hrow := List.getElem?_eq_getElem (reloadAllComponents_lt s.selectedRow hnil)
    simp only [hrow, Option.map_some, Option.some.injEq, exists_eq_left', hnil, ne_eq, not_false_eq_true,
      forall_const]
    exact eq_comm

/-- One step keeps the label right exactly if it receives no list in which it is not. -/
theorem step_matches {e : Event} (he : Enabled s e) (hs' : step s e = some s') (hmatches : Matches s) :
    Matches s' ↔ Agrees s e := by
  cases e with
  | viewDidAppear =>
    obtain rfl := Option.some.inj hs'
    exact iff_of_true hmatches trivial
  | answered response =>
    obtain ⟨calls, hcalls, rfl⟩ := Option.map_eq_some_iff.mp hs'
    obtain ⟨phones, rfl⟩ := PhoneDataManager.getPhones_once hcalls
    refine (matches_received _ phones).trans ⟨?_, fun h => h phones hcalls⟩
    intro hcode phones' hphones'
    obtain rfl : phones = phones' := by simpa using hcalls.symm.trans hphones'
    exact hcode
  | didSelectRow row =>
    obtain ⟨phone, hphone, hs'⟩ := Option.bind_eq_some_iff.mp hs'
    obtain rfl := Option.some.inj hs'
    exact iff_of_true (fun _ => ⟨phone, hphone, rfl⟩) trivial

/-- However the screen appears, the answers come and rows are selected: the label is right at all
    times exactly if at every answer the selected row has the code of the first. -/
theorem matches_iff (codeLabel : Option String)
    (run : Runs.Schedule step Enabled (State.init codeLabel)) :
    Runs.Throughout step Matches (State.init codeLabel) run.events ↔
      Runs.Along step Agrees (State.init codeLabel) run.events := by
  refine Runs.throughout_iff_along_trap (I := fun _ => True)
    (fun s e s' _ he hs' => ⟨trivial, step_matches he hs'⟩) (fun s e _ _ htrap => ?_) trivial
    (fun h => absurd rfl h) run.enabled
  cases e with
  | viewDidAppear => trivial
  | answered response =>
    intro phones hphones
    rw [step, hphones] at htrap
    cases htrap
  | didSelectRow row => trivial

/-- The number that is handed on starts with the code of the selected row then. -/
theorem phone_of_matches (h : Matches s) (hphones : s.phones ≠ []) (numberTextField : String) :
    ∃ selected, s.phones[s.selectedRow]? = some selected ∧
      phone s numberTextField = some (selected.code ++ numberTextField) := by
  obtain ⟨selected, hselected, hcode⟩ := h hphones
  exact ⟨selected, hselected, by rw [phone, hcode, Option.map_some]⟩

/-- Two countries. -/
def countries : DataResponse := ⟨some 200, some (.array
  [.dictionary [("Id", .int 1), ("Country", .string "Germany"), ("Code", .string "+49")],
    .dictionary [("Id", .int 2), ("Country", .string "Ukraine"), ("Code", .string "+380")]])⟩

/-- The second row is selected, and the screen appears once more. -/
def backToScreen : List Event :=
  [.viewDidAppear, .answered countries, .didSelectRow 1, .viewDidAppear, .answered countries]

/-- The picker stays with the second row, and the label is back at the first. -/
theorem backToScreen_differs : Runs.Along step Enabled (State.init (some "")) backToScreen ∧
    (Runs.exec step (State.init (some "")) backToScreen).map
        (fun s => (s.phones.map (·.code), s.selectedRow, s.codeLabel)) =
      some (["+49", "+380"], 1, some "+49") ∧
    ¬ Runs.Throughout step Matches (State.init (some "")) backToScreen := by
  have hlast : (Runs.exec step (State.init (some "")) backToScreen).map
      (fun s => (s.phones.map (·.code), s.selectedRow, s.codeLabel)) =
        some (["+49", "+380"], 1, some "+49") := by decide
  refine ⟨by decide, hlast, fun h => ?_⟩
  obtain ⟨s, hs, hfields⟩ := Option.map_eq_some_iff.mp hlast
  simp only [Prod.mk.injEq] at hfields
  obtain ⟨hcodes, hrow, hlabel⟩ := hfields
  have hphones : s.phones ≠ [] := by
    intro hnil
    rw [hnil] at hcodes
    cases hcodes
  obtain ⟨selected, hselected, hcode⟩ := Runs.throughout_last h hs hphones
  have hsecond : (s.phones.map (·.code))[1]? = some selected.code := by
    rw [List.getElem?_map, ← hrow, hselected, Option.map_some]
  rw [hcodes, ← hcode, hlabel] at hsecond
  exact absurd hsecond (by decide)

end DialCode

end Shiftgram
