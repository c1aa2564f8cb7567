namespace Flotilla.Defaults

def fleetSize : Nat := 5
def hostTemplate : String := "node\x7b\x7d"
def bootstrapPort : Nat := 27736
def networkPort : Nat := 27737
def secondBootstrapPort : Nat := 27738
def secondNetworkPort : Nat := 27739
def hostPortBase : Nat := 8080
def staking : Nat := 10
def elevatedStaking : Nat := 100
def inputsDirectory : String := "inputs"
def remoteDirectory : String := "~/block_chat"
def unitName : String := "block_chat"
def secondUnitName : String := "block_chat_2"
def unitDirectory : String := "/etc/systemd/system"
def sshConfigFile : String := "~/.ssh/config"
def connectTimeout : Nat := 60
def hostTimeout : Nat := 10
def probeTimeout : Nat := 30
def reachTimeout : Nat := 5

end Flotilla.Defaults
