import AioVpn.Config.Config

/-!
# `VpnService.Builder`

What Android does with the calls the backend makes on one builder.  The builder
collects the parameters of the virtual interface; a call it does not accept
throws.  The rule that matters most is the one on applications: a builder holds
either a list of allowed packages or a list of disallowed ones, and a call of the
wrong kind throws `UnsupportedOperationException`, before it looks at the package.

Whether a package is installed, and whether an address or a route is one the
system accepts, are answers of the device; they come with `DeviceEnv`.

`VpnBuilder.usesTunnel` is the meaning of the two lists once the interface is up.
-/

namespace AioVpn

/-- `BackendException.Reason`, with its format arguments. -/
inductive BackendReason where
  | tunnelMissingConfig
  | vpnNotAuthorized
  | unableToStartVpn
  | tunCreationError
  | goActivationErrorCode (code : ℤ)
  | dnsResolutionFailure (host : JString)
  deriving DecidableEq

/-- The exceptions of the backend. -/
inductive Exn where
  | backend (reason : BackendReason)
  | illegalState
  | illegalArgument
  | security
  | unsupportedOperation
  /-- `PackageManager.NameNotFoundException`. -/
  | nameNotFound (packageName : JString)
  deriving DecidableEq

/-- The answers of the device to the calls on a builder. -/
structure DeviceEnv where
  installed : JString → Bool := fun _ => true
  acceptsAddress : InetNetwork → Bool := fun _ => true
  acceptsDnsServer : InetAddress → Bool := fun _ => true
  acceptsRoute : InetNetwork → Bool := fun _ => true

/-- The parameters collected by a builder. -/
structure VpnBuilder where
  session : JString := []
  /-- The packages let into the tunnel, when any is named. -/
  allowedApplications : List JString := []
  /-- The packages kept out of the tunnel. -/
  disallowedApplications : List JString := []
  addresses : List InetNetwork := []
  dnsServers : List InetAddress := []
  searchDomains : List JString := []
  routes : List InetNetwork := []
  /-- Both address families may bypass the tunnel. -/
  allowFamilies : Bool := false
  mtu : ℤ := 0

namespace VpnBuilder

/-- `addDisallowedApplication`. -/
def addDisallowedApplication (dev : DeviceEnv) (b : VpnBuilder) (packageName : JString) :
    Except Exn VpnBuilder :=
  if b.allowedApplications ≠ [] then .error .unsupportedOperation
  else if dev.installed packageName = false then .error (.nameNotFound packageName)
  else .ok { b with disallowedApplications := b.disallowedApplications ++ [packageName] }

/-- `addAllowedApplication`. -/
def addAllowedApplication (dev : DeviceEnv) (b : VpnBuilder) (packageName : JString) :
    Except Exn VpnBuilder :=
  if b.disallowedApplications ≠ [] then .error .unsupportedOperation
  else if dev.installed packageName = false then .error (.nameNotFound packageName)
  else .ok { b with allowedApplications := b.allowedApplications ++ [packageName] }

/-- `addAddress`. -/
def addAddress (dev : DeviceEnv) (b : VpnBuilder) (address : InetNetwork) :
    Except Exn VpnBuilder :=
  if dev.acceptsAddress address then .ok { b with addresses := b.addresses ++ [address] }
  else .error .illegalArgument

/-- `addDnsServer`. -/
def addDnsServer (dev : DeviceEnv) (b : VpnBuilder) (address : InetAddress) :
    Except Exn VpnBuilder :=
  if dev.acceptsDnsServer address then .ok { b with dnsServers := b.dnsServers ++ [address] }
  else .error .illegalArgument

/-- `addSearchDomain`. -/
def addSearchDomain (b : VpnBuilder) (domain : JString) : VpnBuilder :=
  { b with searchDomains := b.searchDomains ++ [domain] }

/-- `addRoute`. -/
def addRoute (dev : DeviceEnv) (b : VpnBuilder) (route : InetNetwork) : Except Exn VpnBuilder :=
  if dev.acceptsRoute route then .ok { b with routes := b.routes ++ [route] }
  else .error .illegalArgument

/-- `setMtu`. -/
def setMtu (b : VpnBuilder) (mtu : ℤ) : Except Exn VpnBuilder :=
  if mtu ≤ 0 then .error .illegalArgument else .ok { b with mtu := mtu }

/-- A package uses the tunnel when it is not disallowed and, when any package is
allowed, it is one of these. -/
def usesTunnel (b : VpnBuilder) (packageName : JString) : Bool :=
  packageName ∉ b.disallowedApplications &&
    (b.allowedApplications = [] || packageName ∈ b.allowedApplications)

end VpnBuilder
end AioVpn
