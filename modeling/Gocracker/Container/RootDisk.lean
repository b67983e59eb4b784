import Gocracker.Transition.Custody
import Gocracker.Transition.Run
import Gocracker.Virtio.Block
import Gocracker.Vmm.Restore

/-!
# The root disks of VMs

Many VMs are started from one template image. `prepareBootDisk` gives each of them a path of its
own, but not always a file of its own: unless the disk is to be persistent, `copyDiskImage` makes a
hard link to the template, trusting the guest not to write. Only if that is not possible, or not
wanted, is there a copy. A snapshot links the disk of the VM it is taken of in the same way, and
the VMs restored from it open the disk of the snapshot.

## Whose writes a VM sees

The block device is opened for writing in every case, and what the guest sends to it is up to the
guest. So files are modelled by their inodes, and a VM by the inode its device has open. Next to it
stands what the VM should see: the content it was started from, overlaid with its own writes.
-/

namespace Gocracker

open Machine Transition List Function

/-! ## Provisioning -/

/-- A drive with the code of a function. -/
structure CodeDisk where
  hostPath : String
  readOnly : Bool

/-- The options of a run that concern its drives. -/
structure RunOptions where
  rootfsPersistent : Bool
  drives : List DriveConfig
  codeDisks : List CodeDisk

/-- The root disk and the others, or nothing if there are no others. -/
def runtimeDrives (rootDisk : String) (opts : RunOptions) : List DriveConfig :=
  if opts.drives = [] ∧ opts.codeDisks.isEmpty then []
  else
    { id := "root", path := rootDisk, root := true, readOnly := false } ::
      (opts.drives.map fun drive ↦ { drive with root := false }) ++
      opts.codeDisks.mapIdx fun i cd ↦
        { id := "code" ++ toString i, path := cd.hostPath, root := false, readOnly := cd.readOnly }

/-- The root drive of a VM that is booted from the given disk. `cfg` is the rest of its
configuration. -/
def bootDrive (cfg : Config) (bootDiskPath : String) (opts : RunOptions) : Option DriveConfig :=
  let cfg := { cfg with
    diskImage := bootDiskPath, diskRO := false, drives := runtimeDrives bootDiskPath opts }
  cfg.driveList.find? DriveConfig.root

/-! ## Hosts -/

/-- The root disk of a running VM: its open file, its device, what it was started from, and what it
has done. -/
structure GuestDisk where
  ino : ℕ
  device : BlockDevice
  base : List Byte
  own : List DiskOp

/-- What the VM should see. -/
def GuestDisk.view (v : GuestDisk) : List Byte := overlay v.base v.own

/-- A disk that belongs to a snapshot, with its content at that time. -/
structure SnapshotDisk where
  ino : ℕ
  readOnly : Bool
  captured : List Byte

/-- The files of a host, by inode; inode `0` is the template. -/
structure DiskHost where
  /-- The template as it was built. -/
  pristine : List Byte
  content : ℕ → List Byte
  nextIno : ℕ
  vms : List GuestDisk
  snapshots : List SnapshotDisk

def templateIno : ℕ := 0

/-- What runs do with their disks. -/
inductive DiskEvent where
  /-- A cold boot. `linked`: hard links to the template can be made. -/
  | coldBoot (cfg : Config) (opts : RunOptions) (path : String) (linked punchesHoles : Bool)
  /-- A snapshot of a VM. `linked`: it shares the VM's file. -/
  | capture (vm : ℕ) (linked : Bool)
  | restore (snapshot : ℕ) (arch : Arch) (punchesHoles : Bool)
  /-- A request of a VM's guest, in a chain of its own making. -/
  | request (vm : ℕ) (q : Queue) (r : Ram) (head : BitVec 16) (faults : List (Option ℕ))
  | stop (vm : ℕ)

namespace DiskHost

def init (template : List Byte) : DiskHost where
  pristine := template
  content := Function.update (fun _ ↦ []) templateIno template
  nextIno := 1
  vms := []
  snapshots := []

/-- A new file with the content of another. -/
def copyFile (h : DiskHost) (src : ℕ) : DiskHost :=
  { h with
    content := Function.update h.content h.nextIno (h.content src)
    nextIno := h.nextIno + 1 }

/-- A run's own disk: linked where the template may be shared, else copied. -/
def copyDiskImage (h : DiskHost) (src : ℕ) (overlay linked : Bool) : ℕ × DiskHost :=
  if overlay ∧ linked then (src, h) else (h.nextIno, h.copyFile src)

def openDevice (h : DiskHost) (ino : ℕ) (readOnly punchesHoles : Bool)
    (opts : BlockDeviceOptions) : BlockDevice :=
  newBlockDeviceWithOptions ⟨(h.content ino).length, punchesHoles⟩ readOnly opts

def step (h : DiskHost) : DiskEvent → Option DiskHost
  | .coldBoot cfg opts path linked punchesHoles =>
    match bootDrive cfg path opts with
    | none => none
    | some drive =>
      let (ino, h) := h.copyDiskImage templateIno (!opts.rootfsPersistent) linked
      let device := h.openDevice ino drive.readOnly punchesHoles ⟨false, false⟩
      some { h with vms := h.vms ++ [⟨ino, device, h.pristine, []⟩] }
  | .capture vm linked =>
    match h.vms[vm]? with
    | none => none
    | some v =>
      let (ino, h) := h.copyDiskImage v.ino true linked
      some { h with snapshots := h.snapshots ++ [⟨ino, v.device.readOnly, h.content ino⟩] }
  | .restore snapshot arch punchesHoles =>
    match h.snapshots[snapshot]? with
    | none => none
    | some s =>
      let opts : BlockDeviceOptions :=
        match arch with
        | .amd64 => ⟨true, !s.readOnly⟩
        | .arm64 => ⟨false, false⟩
      let device := h.openDevice s.ino s.readOnly punchesHoles opts
      some { h with vms := h.vms ++ [⟨s.ino, device, s.captured, []⟩] }
  | .request vm q r head faults =>
    match h.vms[vm]? with
    | none => none
    | some v =>
      let out := v.device.handleRequest q r (h.content v.ino) faults head
      some { h with
        content := Function.update h.content v.ino (overlay (h.content v.ino) out.ops)
        vms := h.vms.set vm { v with own := v.own ++ out.ops } }
  | .stop vm => some { h with vms := h.vms.eraseIdx vm }

/-! ## Isolation -/

/-- Every VM sees what it was started from and its own writes, so that this is what every read
returns, and the template is as it was built. -/
structure Isolated (template : List Byte) (h : DiskHost) : Prop where
  views : ∀ v ∈ h.vms, h.content v.ino = v.view
  template_eq : h.content templateIno = template

/-- The file of a VM is neither the template nor open in another VM. -/
def Unshared (h : DiskHost) (vm : ℕ) (v : GuestDisk) : Prop :=
  v.ino ≠ templateIno ∧
    ∀ i < h.vms.length, i ≠ vm → h.vms[i]?.map GuestDisk.ino ≠ some v.ino

instance (h : DiskHost) (vm : ℕ) (v : GuestDisk) : Decidable (h.Unshared vm v) :=
  inferInstanceAs (Decidable (_ ∧ _))

/-- The condition on the VMs: only a VM with a file of its own writes or discards, and only a
snapshot whose disk is still the one captured is restored. -/
def KeepsApart (h : DiskHost) : DiskEvent → Prop
  | .restore snapshot _ _ =>
    match h.snapshots[snapshot]? with
    | none => True
    | some s => h.content s.ino = s.captured
  | .request vm q r head _ =>
    match h.vms[vm]? with
    | none => True
    | some v => v.device.modifies q r head = true → h.Unshared vm v
  | _ => True

instance (h : DiskHost) (e : DiskEvent) : Decidable (h.KeepsApart e) := by
  unfold KeepsApart
  split
  · split <;> infer_instance
  · split <;> infer_instance
  · infer_instance

/-- **The invariant of a host.** -/
structure DiskInv (template : List Byte) (h : DiskHost) : Prop extends Isolated template h where
  pristine_eq : h.pristine = template
  templateIno_lt : templateIno < h.nextIno
  vms_lt : ∀ v ∈ h.vms, v.ino < h.nextIno
  snapshots_lt : ∀ s ∈ h.snapshots, s.ino < h.nextIno

variable {template : List Byte} {h h' : DiskHost}

theorem DiskInv.init (template : List Byte) : DiskInv template (init template) where
  views := by simp [DiskHost.init]
  template_eq := by simp [DiskHost.init]
  pristine_eq := rfl
  templateIno_lt := by simp [DiskHost.init, templateIno]
  vms_lt := by simp [DiskHost.init]
  snapshots_lt := by simp [DiskHost.init]

section

variable (hinv : DiskInv template h)
include hinv

theorem DiskInv.copyFile (src : ℕ) : DiskInv template (h.copyFile src) := by
  -- The new inode is not in use.
  have hold : ∀ ino < h.nextIno, (h.copyFile src).content ino = h.content ino := by
    intro ino hlt
    exact update_of_ne (Nat.ne_of_lt hlt) _ _
  constructor
  · constructor
    · intro v hv
      rw [hold v.ino (hinv.vms_lt v hv)]
      exact hinv.views v hv
    · rw [hold templateIno hinv.templateIno_lt]
      exact hinv.template_eq
  · exact hinv.pristine_eq
  · exact Nat.lt_succ_of_lt hinv.templateIno_lt
  · intro v hv
    exact Nat.lt_succ_of_lt (hinv.vms_lt v hv)
  · intro s hs
    exact Nat.lt_succ_of_lt (hinv.snapshots_lt s hs)

theorem DiskInv.copyDiskImage {src ino : ℕ} (hsrc : src < h.nextIno)
    {overlay linked : Bool} (heq : h.copyDiskImage src overlay linked = (ino, h')) :
    DiskInv template h' ∧ ino < h'.nextIno ∧ h'.content ino = h.content src := by
  rw [DiskHost.copyDiskImage] at heq
  split at heq
  · obtain ⟨⟩ := heq
    exact ⟨hinv, hsrc, rfl⟩
  · obtain ⟨⟩ := heq
    exact ⟨hinv.copyFile src, Nat.lt_succ_self _, update_self ..⟩

theorem DiskInv.addVM {v : GuestDisk} (hlt : v.ino < h.nextIno)
    (hview : h.content v.ino = v.view) : DiskInv template { h with vms := h.vms ++ [v] } := by
  constructor
  · refine ⟨?_, hinv.template_eq⟩
    intro w hw
    rcases mem_append.mp hw with hw | hw
    · exact hinv.views w hw
    · rw [mem_singleton.mp hw]
      exact hview
  · exact hinv.pristine_eq
  · exact hinv.templateIno_lt
  · intro w hw
    rcases mem_append.mp hw with hw | hw
    · exact hinv.vms_lt w hw
    · rw [mem_singleton.mp hw]
      exact hlt
  · exact hinv.snapshots_lt

theorem DiskInv.addSnapshot {s : SnapshotDisk} (hlt : s.ino < h.nextIno) :
    DiskInv template { h with snapshots := h.snapshots ++ [s] } := by
  refine ⟨⟨hinv.views, hinv.template_eq⟩, hinv.pristine_eq, hinv.templateIno_lt, hinv.vms_lt, ?_⟩
  intro t ht
  rcases mem_append.mp ht with ht | ht
  · exact hinv.snapshots_lt t ht
  · rw [mem_singleton.mp ht]
    exact hlt

/-- **A request** of a VM with a file of its own, or one that leaves the image alone. -/
theorem DiskInv.request {vm : ℕ} {v : GuestDisk} (hv : h.vms[vm]? = some v)
    {ops : List DiskOp} (happly : ops = [] ∨ h.Unshared vm v) : DiskInv template { h with
      content := Function.update h.content v.ino (overlay (h.content v.ino) ops)
      vms := h.vms.set vm { v with own := v.own ++ ops } } := by
  have hmem : v ∈ h.vms := mem_of_getElem? hv
  have hother : ∀ ino, ops = [] ∨ ino ≠ v.ino →
      Function.update h.content v.ino (overlay (h.content v.ino) ops) ino = h.content ino := by
    rintro ino (rfl | hne)
    · rw [overlay_nil, update_eq_self]
    · exact update_of_ne hne _ _
  constructor
  · constructor
    · intro w hw
      rcases eq_or_getElem?_of_mem_set hw with rfl | ⟨i, hne, hi⟩
      · dsimp only
        rw [update_self, hinv.views v hmem]
        exact foldl_append.symm
      have hw' : w ∈ h.vms := mem_of_getElem? hi
      refine (hother w.ino (happly.imp_right fun hunshared heq ↦ ?_)).trans (hinv.views w hw')
      refine hunshared.2 i (List.getElem?_eq_some_iff.mp hi).1 hne ?_
      rw [hi, Option.map_some, heq]
    · refine (hother templateIno (happly.imp_right fun hunshared heq ↦ ?_)).trans hinv.template_eq
      exact hunshared.1 heq.symm
  · exact hinv.pristine_eq
  · exact hinv.templateIno_lt
  · intro w hw
    rcases eq_or_getElem?_of_mem_set hw with rfl | ⟨i, -, hi⟩
    · exact hinv.vms_lt v hmem
    · exact hinv.vms_lt w (mem_of_getElem? hi)
  · exact hinv.snapshots_lt

theorem DiskInv.stop (vm : ℕ) : DiskInv template { h with vms := h.vms.eraseIdx vm } := by
  have hsub : ∀ v ∈ h.vms.eraseIdx vm, v ∈ h.vms := fun v hv ↦ mem_of_mem_eraseIdx hv
  exact ⟨⟨fun v hv ↦ hinv.views v (hsub v hv), hinv.template_eq⟩, hinv.pristine_eq,
    hinv.templateIno_lt, fun v hv ↦ hinv.vms_lt v (hsub v hv), hinv.snapshots_lt⟩

/-- **Every step that keeps the VMs apart keeps the invariant.** -/
theorem DiskInv.step {e : DiskEvent} (hok : h.KeepsApart e)
    (hstep : h.step e = some h') : DiskInv template h' := by
  revert hstep
  fun_cases DiskHost.step h e with
  | case2 cfg opts path linked punchesHoles hpath hopen ino hcopied hcopy =>
    obtain ⟨hinv', hlt, hcontent⟩ := hinv.copyDiskImage hinv.templateIno_lt hcopy
    rintro ⟨⟩
    refine hinv'.addVM hlt ?_
    rw [hcontent, hinv.template_eq, ← hinv'.pristine_eq]
    rfl
  | case4 vm linked v hv ino hcopied hcopy =>
    have hsrc := hinv.vms_lt v (mem_of_getElem? hv)
    obtain ⟨hinv', hlt, -⟩ := hinv.copyDiskImage hsrc hcopy
    rintro ⟨⟩
    exact hinv'.addSnapshot hlt
  | case6 snapshot arch punchesHoles s hs =>
    rintro ⟨⟩
    rw [KeepsApart, hs] at hok
    exact hinv.addVM (hinv.snapshots_lt s (mem_of_getElem? hs)) hok
  | case8 vm q r head faults v hv =>
    rintro ⟨⟩
    rw [KeepsApart, hv] at hok
    refine hinv.request hv ?_
    -- A request that does not modify performs no operation on the image.
    by_cases hmod : v.device.modifies q r head = true
    · exact .inr (hok hmod)
    · exact .inl (BlockDevice.ops_handleRequest (Bool.eq_false_of_not_eq_true hmod))
  | case9 vm =>
    rintro ⟨⟩
    exact hinv.stop vm
  | _ => nofun

end

/-- **Root disks are isolated** in every run that keeps the VMs apart: whatever the template, the
VMs, their snapshots and the requests of their guests. -/
theorem isolated_of_keepsApart (template : List Byte) {events : List DiskEvent} {h : DiskHost}
    (hrun : Run DiskHost.step KeepsApart (.init template) events h) : h.Isolated template := by
  have hinv : DiskInv template h :=
    hrun.invariant (fun _ _ _ hinv hok hstep ↦ DiskInv.step hinv hok hstep) (DiskInv.init template)
  exact hinv.toIsolated

end DiskHost

/-! ## Two runs -/

/-- The options of a run without further drives. -/
def plainOptions (rootfsPersistent : Bool) : RunOptions := ⟨rootfsPersistent, [], []⟩

/-- A cold boot on a filesystem with hard links. -/
def bootEvent (rootfsPersistent : Bool) : DiskEvent :=
  let cfg : Config := {
    id := "", arch := .blank, diskImage := "", diskRO := false, drives := [], tapName := "",
    netMode := "", vcpus := 1, x86Boot := .blank, sharedFS := [], vsock := none, balloon := none }
  .coldBoot cfg (plainOptions rootfsPersistent) "runs/vm/disk.ext4" true true

/-- A VM writes zeros to sector 0. -/
def outEvent (vm : ℕ) : DiskEvent :=
  .request vm (newQueue 4) ⟨outBytes, length_outBytes⟩ 0 []

/-- A VM with a persistent disk and one on the template itself; a snapshot of the first, and a VM
restored from it; then the first writes. -/
theorem isolated_of_keepsApart_persistent :
    ∃ h, Run DiskHost.step DiskHost.KeepsApart (.init oneSector)
        [bootEvent true, bootEvent false, .capture 0 false, .restore 0 .amd64 true, outEvent 0] h ∧
      h.Isolated oneSector := by
  refine Run.exists_of_exec (·.vms.length = 3) (by decide +kernel) fun h hrun _ ↦ ?_
  exact DiskHost.isolated_of_keepsApart oneSector hrun

/-- **A guest writes to the template.** Two VMs are booted with the default options, so that both
have the template open; the first writes to sector 0. -/
theorem not_isolated_default : ∃ h, Run DiskHost.step anyStep (.init oneSector)
        [bootEvent false, bootEvent false, outEvent 0] h ∧ ¬h.Isolated oneSector := by
  refine Run.exists_of_exec (fun h ↦ (h.content templateIno).head? = some 0) (by decide +kernel)
    fun h hrun hhead hisolated ↦ ?_
  rw [hisolated.template_eq] at hhead
  exact absurd hhead (by decide)

end Gocracker
