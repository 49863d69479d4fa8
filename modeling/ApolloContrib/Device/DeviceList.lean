import ApolloContrib.Library.LinkedQueue
import ApolloContrib.Library.Run

namespace ApolloContrib.Device

open Function Library

/-! The list of the devices, `zynq_dev_list`, which `zynq_probe` puts a device on at its end, and
what `zynq_zdev_all_show` finds on it. -/

variable {Dev : Type*} [DecidableEq Dev]

/-- `zdevNext` is the field `zdev_next`, none where no device is allocated. The devices whose
probe succeeded and that were not removed, from the last on, are history. -/
structure DeviceList (Dev : Type*) where
  zynqDevList : Option Dev
  zdevNext : Dev → Option (Option Dev)
  present : List Dev

inductive ListStep (Dev : Type*)
  | zdevAlloc (zdev : Dev)
  | probeFails (zdev : Dev)
  | probeEnds (zdev : Dev)
  | remove (zdev : Dev)
  deriving DecidableEq

namespace DeviceList

def loaded : DeviceList Dev := ⟨none, fun _ => none, []⟩

/-- `kfree` leaves the list as it is. -/
def step (s : DeviceList Dev) : ListStep Dev → Option (DeviceList Dev)
  | .zdevAlloc zdev =>
      if s.zdevNext zdev = none then
        some { s with zdevNext := update s.zdevNext zdev (some none) }
      else none
  | .probeFails zdev =>
      if s.zdevNext zdev ≠ none ∧ zdev ∉ s.present then
        some { s with zdevNext := update s.zdevNext zdev none }
      else none
  | .probeEnds zdev =>
      if s.zdevNext zdev ≠ none ∧ zdev ∉ s.present then
        some
          { zynqDevList := some zdev
            zdevNext := update s.zdevNext zdev (some s.zynqDevList)
            present := zdev :: s.present }
      else none
  | .remove zdev =>
      if zdev ∈ s.present then
        some { s with zdevNext := update s.zdevNext zdev none, present := s.present.erase zdev }
      else none

/-- The loop of `zynq_zdev_all_show`. It has no answer where it reads what is freed. -/
def showFrom (zdevNext : Dev → Option (Option Dev)) : Nat → Option Dev → Option (List Dev)
  | _, none => some []
  | 0, some _ => none
  | fuel + 1, some zdev =>
      match zdevNext zdev with
      | none => none
      | some link => (showFrom zdevNext fuel link).map (zdev :: ·)

def zynqZdevAllShow (s : DeviceList Dev) (fuel : Nat) : Option (List Dev) :=
  showFrom s.zdevNext fuel s.zynqDevList

/-- The file lists the devices that are present, the last one first. -/
def ShowsPresent (s : DeviceList Dev) : Prop :=
  ∃ rounds, ∀ fuel, rounds ≤ fuel → s.zynqZdevAllShow fuel = some s.present

def ListInv (s : DeviceList Dev) : Prop := Linked s.zdevNext s.zynqDevList s.present

omit [DecidableEq Dev] in
theorem linked_of_showFrom {zdevNext : Dev → Option (Option Dev)} {fuel : Nat} {first : Option Dev}
    {shown : List Dev} (hshown : showFrom zdevNext fuel first = some shown) :
    Linked zdevNext first shown := by
  induction fuel generalizing first shown with
  | zero =>
      cases first with
      | none => cases hshown; rfl
      | some zdev => cases hshown
  | succ fuel ih =>
      cases first with
      | none => cases hshown; rfl
      | some zdev =>
          rw [showFrom] at hshown
          cases hread : zdevNext zdev with
          | none => simp [hread] at hshown
          | some link =>
              simp only [hread, Option.map_eq_some_iff] at hshown
              obtain ⟨rest, hrest, rfl⟩ := hshown
              exact ⟨rfl, link, hread, ih hrest⟩

omit [DecidableEq Dev] in
theorem showFrom_of_linked {zdevNext : Dev → Option (Option Dev)} {first : Option Dev}
    {nodes : List Dev} (hlinked : Linked zdevNext first nodes) {fuel : Nat}
    (hfuel : nodes.length ≤ fuel) : showFrom zdevNext fuel first = some nodes := by
  induction nodes generalizing first fuel with
  | nil =>
      obtain rfl := linked_nil.mp hlinked
      cases fuel <;> rfl
  | cons zdev nodes ih =>
      obtain ⟨rfl, link, hread, hrest⟩ := hlinked
      cases fuel with
      | zero => simp at hfuel
      | succ fuel =>
          rw [showFrom, hread]
          simp only [ih hrest (Nat.le_of_succ_le_succ hfuel), Option.map_some]

namespace ListInv

variable {s next : DeviceList Dev} {zdev : Dev}

omit [DecidableEq Dev] in
theorem loaded : ListInv (DeviceList.loaded : DeviceList Dev) := linked_nil.mpr rfl

omit [DecidableEq Dev] in
theorem showsPresent (hinv : ListInv s) : s.ShowsPresent :=
  ⟨s.present.length, fun _ hfuel => showFrom_of_linked hinv hfuel⟩

theorem aside (hinv : ListInv s) (habsent : zdev ∉ s.present) (link : Option (Option Dev)) :
    Linked (update s.zdevNext zdev link) s.zynqDevList s.present := by
  apply Linked.congr hinv
  intro node hnode
  apply update_of_ne
  intro hsame
  exact habsent (hsame ▸ hnode)

omit [DecidableEq Dev] in
theorem absent (hinv : ListInv s) (hfree : s.zdevNext zdev = none) : zdev ∉ s.present := by
  intro hmem
  obtain ⟨link, hread⟩ := Linked.readable hinv hmem
  cases hfree.symm.trans hread

theorem probes (hinv : ListInv s) {label : ListStep Dev} (hstays : ∀ zdev, label ≠ .remove zdev)
    (hstep : s.step label = some next) : ListInv next := by
  cases label with
  | zdevAlloc zdev =>
      obtain ⟨hfree, hnext⟩ := Option.ite_none_right_eq_some.mp hstep
      cases hnext
      exact hinv.aside (hinv.absent hfree) _
  | probeFails zdev =>
      obtain ⟨⟨-, habsent⟩, hnext⟩ := Option.ite_none_right_eq_some.mp hstep
      cases hnext
      exact hinv.aside habsent _
  | probeEnds zdev =>
      obtain ⟨⟨-, habsent⟩, hnext⟩ := Option.ite_none_right_eq_some.mp hstep
      cases hnext
      exact ⟨rfl, s.zynqDevList, update_self _ _ _, hinv.aside habsent _⟩
  | remove zdev => exact absurd rfl (hstays zdev)

theorem removed (hinv : ListInv s) (hstep : s.step (.remove zdev) = some next) :
    ¬ next.ShowsPresent := by
  obtain ⟨hmem, hnext⟩ := Option.ite_none_right_eq_some.mp hstep
  cases hnext
  intro hshows
  obtain ⟨rounds, hshown⟩ := hshows
  have hlinked := linked_of_showFrom (hshown rounds (Nat.le_refl rounds))
  have hgone : zdev ∉ s.present.erase zdev := by
    intro hstill
    obtain ⟨link, hread⟩ := hlinked.readable hstill
    simp at hread
  have hbefore : Linked s.zdevNext s.zynqDevList (s.present.erase zdev) := by
    apply hlinked.congr
    intro node hnode
    refine (update_of_ne ?_ _ _).symm
    intro hsame
    exact hgone (hsame ▸ hnode)
  apply hgone
  rw [hbefore.unique hinv]
  exact hmem

end ListInv

end DeviceList

/-- The file lists the devices that are present, all the time, just when none is removed. -/
theorem zdev_all_shows_iff (labels : List (ListStep Dev)) {final : DeviceList Dev}
    (hrun : run DeviceList.step DeviceList.loaded labels = some final) :
    Throughout DeviceList.step DeviceList.ShowsPresent DeviceList.loaded labels ↔
      ∀ label ∈ labels, ∀ zdev, label ≠ .remove zdev := by
  refine throughout_iff_forall ?_ ?_ ?_ DeviceList.ListInv.loaded hrun
  · exact fun s hinv => DeviceList.ListInv.showsPresent hinv
  · exact fun hinv hstays hstep => DeviceList.ListInv.probes hinv hstays hstep
  · intro s label next hinv hremoves hstep
    obtain ⟨zdev, hlabel⟩ := not_forall_not.mp hremoves
    exact DeviceList.ListInv.removed hinv (hlabel ▸ hstep)

/-- The first of two cards is unplugged, and another one gets its memory. -/
theorem zdev_all_shows_iff_unplugged :
    ¬ Throughout DeviceList.step DeviceList.ShowsPresent (DeviceList.loaded : DeviceList Nat)
      [.zdevAlloc 1, .probeEnds 1, .zdevAlloc 2, .probeEnds 2, .remove 1, .zdevAlloc 1,
        .probeEnds 1] :=
  fun hall => (zdev_all_shows_iff _ rfl).mp hall (.remove 1) (by simp) 1 rfl

end ApolloContrib.Device
