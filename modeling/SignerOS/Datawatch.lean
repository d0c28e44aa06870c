import SignerOS.Common

/-!
# The data volume

`signeros-datawatch`: the script that finds the stick by its label, mounts it without the right
to execute anything on it, checks that the flags took, and keeps watch. `--once` polls for a
while and then gives up, `--daemon` polls for ever, `--umount` flushes and unmounts.

What the machine answers is a parameter of each turn of a loop: the block devices there are,
the flags a mount comes up with, whether an `umount` takes the mount away. Of `/proc/mounts` the
state keeps the lines for `MOUNT_POINT`, oldest first. Log lines and the panel are left out.
-/

namespace SignerOS.Datawatch

/-- `signeros_load_config`, as far as the script reads it. -/
structure Config where
  dataLabel : String := "PSBT_DATA"
  dataDev : String := ""
  dataWaitSecs : ℕ := 8
deriving DecidableEq, Repr

/-- The fields of a line of `blkid` the script asks for. -/
inductive BlkidField
  | label | type
deriving DecidableEq, Repr

/-- The block devices, as the tests of one turn find them. -/
structure Devices where
  /-- `/dev/sd[a-z][0-9]* /dev/sd[a-z]`, expanded. -/
  globbed : List String
  isBlock : String → Bool
  blkidField : String → BlkidField → String

/-- What an `umount` does: its exit status, and whether the mount is gone. -/
structure Umounted where
  status : Bool
  gone : Bool
deriving DecidableEq, Repr

/-- What the machine answers during one turn of a loop. -/
structure Turn where
  /-- The devices while `find_data_dev` looks, or the source of the mount is tested. -/
  found : Devices
  /-- The devices while `mount_data` looks. -/
  mounting : Devices
  /-- `mount -t type -o opts dev`: it fails, or it comes up with these flags. -/
  mount : (type opts dev : String) → Option (List String)
  umount : Umounted

/-- A line of `/proc/mounts` for `MOUNT_POINT`. -/
structure Mount where
  src : String
  flags : List String
deriving DecidableEq, Repr

/-- The mounts at `MOUNT_POINT`, and the warning the kiosk shows. -/
structure Watch where
  mounts : List Mount
  warning : Option String
deriving DecidableEq, Repr

/-- The candidates of `find_data_dev`: block devices with the label and a filesystem that can be
mounted. -/
def candidates (cfg : Config) (devices : Devices) : List String :=
  devices.globbed.filter fun dev =>
    devices.isBlock dev && (devices.blkidField dev .label == cfg.dataLabel)
      && ["vfat", "exfat"].contains (devices.blkidField dev .type)

/-- `find_data_dev`: the device to mount, and the warning afterwards. A configured device wins
outright; of several candidates the first is taken and the operator is told. -/
def findDataDev (cfg : Config) (devices : Devices) (warning : Option String) :
    Option String × Option String :=
  if cfg.dataDev ≠ "" then
    (if devices.isBlock ("/dev/" ++ cfg.dataDev) then some ("/dev/" ++ cfg.dataDev)
      else if devices.isBlock cfg.dataDev then some cfg.dataDev
      else none, warning)
  else
    match candidates cfg devices with
    | [] => (none, none)
    | [dev] => (some dev, none)
    | dev :: _ =>
      (some dev, some ("Several volumes are labelled " ++ cfg.dataLabel ++ "; using " ++ dev ++ ". "
        ++ "Remove the extra stick and reboot if that is not the one you meant."))

/-- `_opts`, for the filesystems that are mounted at all. -/
def mountOptions (type : String) : Option String :=
  let common := "rw,noexec,nodev,nosuid,sync,uid=1000,gid=1000,fmask=0117,dmask=0007"
  if type = "vfat" then some (common ++ ",iocharset=utf8,shortname=mixed,flush,errors=remount-ro")
  else if type = "exfat" then some (common ++ ",iocharset=utf8,errors=remount-ro")
  else none

/-- `mount_data` up to its `mount`: the flags it comes up with, unless the device or its type is
refused or the mount fails. -/
def bringUp (t : Turn) (dev : String) : Option (List String) :=
  if t.mounting.isBlock dev then
    let type := t.mounting.blkidField dev .type
    match mountOptions type with
    | some opts => t.mount type opts dev
    | none => none
  else none

/-- The flags a mount must have come up with. -/
def flagsTook (flags : List String) : Bool :=
  ["rw", "noexec", "nodev", "nosuid"].all flags.contains

/-- After an `umount`: it takes the topmost mount away, or it does not. -/
def Watch.umount (s : Watch) (answer : Umounted) : Watch :=
  if answer.gone then { s with mounts := s.mounts.dropLast } else s

/-- `mount_data`. The flags checked are those of the first line for `MOUNT_POINT`. -/
def mountData (t : Turn) (dev : String) (s : Watch) : Bool × Watch :=
  match bringUp t dev with
  | none => (false, s)
  | some flags =>
    let s := { s with mounts := s.mounts ++ [⟨dev, flags⟩] }
    let actual := (s.mounts.head?.map Mount.flags).getD []
    if flagsTook actual then (true, s) else (false, s.umount t.umount)

/-- `is_mounted`. -/
def isMounted (s : Watch) : Bool := !s.mounts.isEmpty

/-- What both loops do when nothing is mounted: look for the device and mount it. -/
def findAndMount (cfg : Config) (t : Turn) (s : Watch) : Bool × Watch :=
  let (dev, warning) := findDataDev cfg t.found s.warning
  let s := { s with warning := warning }
  match dev with
  | none => (false, s)
  | some dev => mountData t dev s

/-- One turn of the loop of `try_mount_for`: whether it returns success, and the state. -/
def attempt (cfg : Config) (t : Turn) (s : Watch) : Bool × Watch :=
  if isMounted s then (true, s) else findAndMount cfg t s

/-- `try_mount_for`, over the turns its deadline allows. -/
def tryMountFor (cfg : Config) : List Turn → Watch → Bool × Watch
  | [], s => (false, s)
  | t :: turns, s =>
    match attempt cfg t s with
    | (true, s) => (true, s)
    | (false, s) => tryMountFor cfg turns s

/-- `--once`: a turn at every second up to the deadline, the last included. -/
def once (cfg : Config) (turn : ℕ → Turn) (s : Watch) : Bool × Watch :=
  tryMountFor cfg ((List.range (cfg.dataWaitSecs + 1)).map turn) s

/-- One turn of the loop of `--daemon`. A mount whose device is gone is cleaned up. -/
def poll (cfg : Config) (t : Turn) (s : Watch) : Watch :=
  if isMounted s then
    match s.mounts with
    | m :: _ => if m.src ≠ "" ∧ ¬ t.found.isBlock m.src then s.umount t.umount else s
    | [] => s
  else (findAndMount cfg t s).2

/-- `--umount`: a plain `umount`, and a lazy one when it fails. -/
def umountData (first second : Umounted) (s : Watch) : Watch :=
  if isMounted s then
    let s := s.umount first
    if first.status then s else s.umount second
  else s

/-- The script at work: one call of `--once`, a turn of the daemon, or `--umount`. -/
inductive Op
  | once (turn : ℕ → Turn)
  | poll (t : Turn)
  | umount (first second : Umounted)

def step (cfg : Config) (s : Watch) : Op → Watch
  | .once turn => (once cfg turn s).2
  | .poll t => poll cfg t s
  | .umount first second => umountData first second s

/-- Nothing is mounted when the init script starts. -/
def start : Watch := { mounts := [], warning := none }

end SignerOS.Datawatch
