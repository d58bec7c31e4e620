import AioVpn.Tools.ConfigFile

/-!
# `wg-quick up`

What `wg-quick` of Android makes of a configuration file.  `parse_options` takes the lines out of
the file that `wg` does not know, and hands the others to `wg setconf`; `cmd_up` then sets the
addresses, the DNS servers, the MTU, and the users whose traffic goes through the tunnel.

The users are those of the applications that the file includes, or does not exclude.  Their numbers
are looked up in the list of packages that the system keeps.  The loop over the selected
applications goes on one byte behind the terminating zero of their list, so that what stands in
memory there is read as well; it is a part of the environment, `behind`.

The commands that are run are given by their arguments.  Pointers that may be `NULL` are options.
-/

namespace AioVpn
namespace WgQuick

open CString

/-! ## The options -/

/-- What `parse_options` collects. -/
structure Options where
  config : Option CString := none
  addrs : Option CString := none
  dnses : Option CString := none
  excludedApplications : Option CString := none
  includedApplications : Option CString := none
  mtu : BitVec 32 := 0#32
  inInterfaceSection : Bool := false

/-- `concat_and_free`. -/
def concatAndFree (orig : Option CString) (delim newLine : CString) : CString :=
  match orig with
  | none => newLine
  | some orig => orig ++ delim ++ newLine

/-- A line without its blanks. -/
def cleanLine (line : CString) : CString := line.filter fun c => !c.isSpace

/-- The line is `key=value` with at least `length` characters. -/
def hasKey (clean key : CString) (length : ℕ) : Bool :=
  strncasecmp clean key key.length && length < clean.length

/-- One line of the file. -/
def readOption (o : Options) (line : CString) : Options :=
  let clean := cleanLine line
  let o :=
    if strcasecmp clean (cstr "[Interface]") then { o with inInterfaceSection := true }
    else if clean.head? = some (cch '[') then { o with inInterfaceSection := false }
    else o
  let comma := [cch ',']
  if o.inInterfaceSection && hasKey clean (cstr "Address=") 8 then
    { o with addrs := some (concatAndFree o.addrs comma (clean.drop 8)) }
  else if o.inInterfaceSection && hasKey clean (cstr "DNS=") 4 then
    { o with dnses := some (concatAndFree o.dnses comma (clean.drop 4)) }
  else if o.inInterfaceSection && hasKey clean (cstr "ExcludedApplications=") 4 then
    { o with
      excludedApplications := some (concatAndFree o.excludedApplications comma (clean.drop 21)) }
  else if o.inInterfaceSection && hasKey clean (cstr "IncludedApplications=") 4 then
    { o with
      includedApplications := some (concatAndFree o.includedApplications comma (clean.drop 21)) }
  else if o.inInterfaceSection && hasKey clean (cstr "MTU=") 4 then
    { o with mtu := atoi (clean.drop 4) }
  else { o with config := some (concatAndFree o.config [] line) }

/-- The loop over the lines.  A line that is too long ends it at once, without the values for
what is missing. -/
def readOptions (o : Options) : List (List CChar) → Options
  | [] =>
      { o with
        config := some (o.config.getD []), addrs := some (o.addrs.getD [])
        dnses := some (o.dnses.getD []) }
  | line :: lines =>
      if (ofBuffer line).length > 2 ^ 16 then o
      else readOptions (readOption o (ofBuffer line)) lines

/-- `parse_options`, from the opened file on. -/
def parseOptions (file : List CChar) : Options := readOptions {} (getlines file)

/-! ## Addresses and servers -/

/-- Not to be used in a command of the shell. -/
def isQuoted (token : CString) : Bool := token.contains (cch '\'') || token.contains (cch '\\')

/-- The tokens of a list of addresses or servers. -/
def tokens (list : CString) : List CString :=
  (strtok (cstr ", \t\n") list).filter fun token => !isQuoted token

/-- The commands of `add_addr`. -/
inductive AddrCommand where
  /-- `ip -6 addr add`. -/
  | ipv6 (addr : CString)
  /-- `interface setcfg`. -/
  | ipv4 (addr : CString) (mask : BitVec 8)
  deriving DecidableEq

/-- `add_addr`. -/
def addAddr (addr : CString) : AddrCommand :=
  if addr.contains (cch ':') then .ipv6 addr
  else
    match strsep (cch '/') addr with
    | (addr, none) => .ipv4 addr 32#8
    | (addr, some mask) => .ipv4 addr ((atoi mask).setWidth 8)

/-- `set_addr`. -/
def setAddr (addrs : CString) : List AddrCommand := (tokens addrs).map addAddr

/-- The pattern `regex_ipnothost`. -/
def isIpNotHost (dns : CString) : Bool :=
  dns ≠ [] && dns.all (fun c => c.isDigit || c = cch '.') || dns.contains (cch ':')

/-- `set_dnses`: the servers and the search domains, if there are servers. -/
def setDnses (dnses : CString) : Option (List CString × List CString) :=
  if dnses.length > 2 ^ 16 then none
  else
    let servers := (tokens dnses).filter isIpNotHost
    let domains := (tokens dnses).filter fun dns => !isIpNotHost dns
    if servers = [] then none else some (servers, domains)

/-! ## The users -/

/-- The name and the user of a line of `packages.list`. -/
def packageOf (line : CString) : Option (CString × ℕ) :=
  match strsep (cch ' ') line with
  | (_, none) => none
  | (packageName, some rest) =>
      let packageUidStr := (strsep (cch ' ') rest).1
      let (packageUid, endptr) := strtoul packageUidStr 10
      let packageUid := packageUid % 2 ^ 32
      if packageUid = 0 ∨ packageUidStr = [] ∨ endptr ≠ [] then none
      else some (packageName, packageUid)

/-- The tokens that the loop over the selected applications sees, from a place in memory on. -/
def selectedFrom : ℕ → List CChar → List CString
  | 0, _ => []
  | _, [] => []
  | fuel + 1, memory =>
      if memory.head? = some 0#8 then []
      else
        let token := memory.takeWhile fun c => c ≠ cch ',' && c ≠ 0#8
        token :: selectedFrom fuel (memory.drop (token.length + 1))

/-- The tokens of a string that is followed in memory by `behind`. -/
def selected (selectedApplications : CString) (behind : List CChar) : List CString :=
  let memory := selectedApplications ++ 0#8 :: behind
  selectedFrom memory.length memory

/-- `compare_uid(a, b) <= 0`. -/
def compareUid (a b : ℕ) : Bool := (BitVec.ofNat 32 a - BitVec.ofNat 32 b).toInt ≤ 0

/-- `get_uid_list`; `none` if the numbers do not fit into the memory that is allocated for them,
with a zero at the end. -/
def getUidList (packages : List (List CChar)) (behind : List CChar) :
    Option CString → Option (List ℕ)
  | none => some []
  | some selectedApplications =>
      let capacity := 2 + selectedApplications.tail.count (cch ',')
      let uids := (packages.filterMap fun line => packageOf (ofBuffer line)).flatMap fun p =>
        ((selected selectedApplications behind).filter fun token =>
          token ≠ [] && token = p.1).map fun _ => p.2
      if uids.length < capacity then some (uids.mergeSort compareUid) else none

/-- A range of users. -/
structure UidRange where
  first : ℕ
  last : ℕ
  deriving DecidableEq

/-- The commands that have been run, and the ranges of the next one. -/
structure Users where
  commands : List (List UidRange) := []
  ranges : List UidRange := []
  argsPerCommand : ℕ := 0

/-- Add a range; every eighteen of them make a command. -/
def Users.add (u : Users) (range : UidRange) : Users :=
  let ranges := u.ranges ++ [range]
  let args := u.argsPerCommand + 1
  if args % 18 = 0 then ⟨u.commands ++ [ranges], [], args⟩ else ⟨u.commands, ranges, args⟩

/-- The command for the ranges that are left. -/
def Users.finish (u : Users) : List (List UidRange) :=
  if u.ranges = [] then u.commands else u.commands ++ [u.ranges]

/-- The loop over the users that are kept out. -/
def excludeUsers (start : ℕ) (u : Users) : List ℕ → Users
  | [] => if start < 99999 then { u with ranges := u.ranges ++ [⟨start, 99999⟩] } else u
  | uid :: uids =>
      excludeUsers ((uid + 1) % 2 ^ 32) (if start > uid - 1 then u else u.add ⟨start, uid - 1⟩) uids

/-- `set_users`: the ranges of each command. -/
def setUsers (packages : List (List CChar)) (behind : List CChar)
    (excludedApplications includedApplications : Option CString) :
    Option (List (List UidRange)) :=
  if excludedApplications.isSome ∧ includedApplications.isSome then none
  else if excludedApplications.isSome ∨ includedApplications.isNone then
    (getUidList packages behind excludedApplications).map fun uids =>
      (excludeUsers 0 {} uids).finish
  else
    (getUidList packages behind includedApplications).map fun uids =>
      (uids.foldl (fun (u : Users) uid => u.add ⟨uid, uid⟩) {}).finish

/-! ## `cmd_up` -/

/-- What `wg-quick` finds. -/
structure UpEnv where
  libc : Wg.Libc
  /-- The lines of `packages.list`. -/
  packages : List (List CChar)
  behind : List CChar

/-- What `cmd_up` asks for. -/
structure Setup where
  device : Wg.Device
  addrs : List AddrCommand
  dnses : Option (List CString × List CString)
  mtu : BitVec 32
  users : List (List UidRange)

/-- `cmd_up`, when each of the commands succeeds. -/
def cmdUp (env : UpEnv) (o : Options) : Option Setup := do
  let config ← o.config
  let device ← (Wg.setconf env.libc false config).toOption
  let addrs ← o.addrs
  let dnses ← o.dnses
  let users ← setUsers env.packages env.behind o.excludedApplications o.includedApplications
  some ⟨device, setAddr addrs, setDnses dnses, o.mtu, users⟩

end WgQuick
end AioVpn
