import ClusterKeeper.Cluster.Names
import ClusterKeeper.Cluster.Storage
import ClusterKeeper.Text

/-!
The two shell scripts that pods run, and the templates that they are filled in from.
-/

namespace ClusterKeeper.Manifest.Script

def ofLines (lines : List String) : String := String.join (lines.map (· ++ "\n"))

/-- Starts a peer of the cluster; peer 0 carries the identity that all others dial. -/
def entrypointTemplate : String :=
  ofLines
    ["#!/bin/sh",
     "# ipfs-cluster peer entrypoint, rendered by ipfs-operator.",
     "set -e",
     "",
     "ordinal=\"$\x7bHOSTNAME##*-\x7d\"",
     "cluster_path=\"\x7b\x7bCLUSTER_DATA_PATH\x7d\x7d\"",
     "",
     "if [ ! -f \"$\x7bcluster_path\x7d/service.json\" ]; then",
     "  echo \"no service.json found, initializing ipfs-cluster\"",
     "  ipfs-cluster-service init --consensus crdt",
     "fi",
     "",
     "PEER_HOSTNAME=\"$(cat /proc/sys/kernel/hostname)\"",
     "",
     "if [ \"$\x7bordinal\x7d\" = \"0\" ]; then",
     "  # Peer 0 carries the bootstrap identity every other peer dials.",
     "  CLUSTER_ID=\"$\x7bBOOTSTRAP_PEER_ID\x7d\" \\",
     "  CLUSTER_PRIVATEKEY=\"$\x7bBOOTSTRAP_PEER_PRIV_KEY\x7d\" \\",
     "  exec ipfs-cluster-service daemon --upgrade",
     "else",
     "  BOOTSTRAP_ADDR=\"/dns4/$\x7bSVC_NAME\x7d-0.$\x7bSVC_NAME\x7d/tcp/" ++
        "\x7b\x7bCLUSTER_SWARM_PORT\x7d\x7d/p2p/$\x7bBOOTSTRAP_PEER_ID\x7d\"",
     "",
     "  if [ -z \"$\x7bBOOTSTRAP_PEER_ID\x7d\" ]; then",
     "    echo \"BOOTSTRAP_PEER_ID is not set\" >&2",
     "    exit 1",
     "  fi",
     "",
     "  # Wait for the bootstrap peer before joining.",
     "  until ipfs-cluster-ctl --host \"/dns4/$\x7bSVC_NAME\x7d-0.$\x7bSVC_NAME\x7d/tcp/" ++
        "\x7b\x7bCLUSTER_API_PORT\x7d\x7d\" peers ls > /dev/null 2>&1; do",
     "    echo \"waiting for bootstrap peer $\x7bBOOTSTRAP_ADDR\x7d\"",
     "    sleep 5",
     "  done",
     "",
     "  echo \"peer $\x7bPEER_HOSTNAME\x7d joining $\x7bBOOTSTRAP_ADDR\x7d\"",
     "  exec ipfs-cluster-service daemon --upgrade --bootstrap \"$\x7bBOOTSTRAP_ADDR\x7d\" --leave",
     "fi"]

def entrypoint : String :=
  Text.fill entrypointTemplate
    [("CLUSTER_DATA_PATH", MountPath.clusterData),
     ("CLUSTER_SWARM_PORT", toString Port.clusterSwarm),
     ("CLUSTER_API_PORT", toString Port.clusterApi)]

/-- Initialises a datastore that holds at most a given amount; running it again changes nothing. -/
def configureIpfsTemplate : String :=
  ofLines
    ["#!/bin/sh",
     "# go-ipfs repo initialisation, rendered by ipfs-operator. Safe to rerun.",
     "set -e",
     "set -x",
     "",
     "repo=\"\x7b\x7bIPFS_DATA_PATH\x7d\x7d\"",
     "",
     "if [ -f \"$\x7brepo\x7d/config\" ]; then",
     "  if [ -f \"$\x7brepo\x7d/repo.lock\" ]; then",
     "    rm \"$\x7brepo\x7d/repo.lock\"",
     "  fi",
     "  exit 0",
     "fi",
     "",
     "ipfs init --profile=badgerds,server",
     "ipfs config Addresses.API /ip4/0.0.0.0/tcp/\x7b\x7bIPFS_API_PORT\x7d\x7d",
     "ipfs config Addresses.Gateway /ip4/0.0.0.0/tcp/\x7b\x7bIPFS_GATEWAY_PORT\x7d\x7d",
     "ipfs config --json Swarm.ConnMgr.HighWater 2000",
     "ipfs config --json Datastore.BloomFilterSize 1048576",
     "ipfs config Datastore.StorageMax \x7b\x7bSTORAGE_MAX\x7d\x7d",
     "ipfs config --json Addresses.Swarm '[\"/ip4/0.0.0.0/tcp/\x7b\x7bIPFS_SWARM_PORT\x7d\x7d\", " ++
        "\"/ip4/0.0.0.0/udp/\x7b\x7bIPFS_SWARM_UDP_PORT\x7d\x7d/quic\", " ++
        "\"/ip4/0.0.0.0/tcp/\x7b\x7bIPFS_WS_PORT\x7d\x7d/ws\"]'"]

/-- What all clusters have in common in that script. -/
def configureIpfsValues : List (String × String) :=
  [("IPFS_DATA_PATH", MountPath.ipfsData),
   ("IPFS_API_PORT", toString Port.ipfsApi),
   ("IPFS_GATEWAY_PORT", toString Port.ipfsGateway),
   ("IPFS_SWARM_PORT", toString Port.ipfsSwarm),
   ("IPFS_SWARM_UDP_PORT", toString Port.ipfsSwarmUdp),
   ("IPFS_WS_PORT", toString Port.ipfsWebsocket)]

def configureIpfs (quantity : String) : String :=
  Text.fill configureIpfsTemplate
    (configureIpfsValues ++ [("STORAGE_MAX", Storage.datastoreMax quantity)])

end ClusterKeeper.Manifest.Script
