import NodeFeatureOperator.Managed.Schema

/-!
# Volumes

What a pod can mount. A volume has a name and one source; each sort of source is a field of its own.

## Main definitions

* `Schema.volume`: a volume of a pod.
-/

namespace NodeFeatureOperator

namespace Schema

/-- A reference to an object of the pod's namespace by its name. -/
def localReference (key : String) : String × Presence × Schema :=
  optRecord key "LocalObjectReference" [needText "name"]

/-- A field of the pod that the pod itself can read. -/
def fieldReference : String × Presence × Schema :=
  optRecord "fieldRef" "ObjectFieldSelector" [optText "apiVersion", needText "fieldPath"]

/-- A resource of a container that the pod can read. -/
def resourceReference : String × Presence × Schema :=
  optRecord "resourceFieldRef" "ResourceFieldSelector"
    [optText "containerName", optText "divisor", needText "resource"]

/-- The keys of an object that are shown as files. -/
def keyItems : String × Presence × Schema :=
  optList "items" "KeyToPath" [needText "key", optInt "mode", needText "path"]

/-- The fields of the pod that are shown as files. -/
def fieldItems : String × Presence × Schema :=
  optList "items" "DownwardAPIVolumeFile"
    [fieldReference, optInt "mode", needText "path", resourceReference]

/-- Amounts of resources, by name. -/
def amounts : List (String × Presence × Schema) := [optDict "limits", optDict "requests"]

/-- A claim for storage. -/
def storageClaim : List (String × Presence × Schema) :=
  [optTexts "accessModes",
    optRecord "dataSource" "TypedLocalObjectReference"
      [optText "apiGroup", needText "kind", needText "name"],
    optRecord "dataSourceRef" "TypedObjectReference"
      [optText "apiGroup", needText "kind", needText "name", optText "namespace"],
    optRecord "resources" "VolumeResourceRequirements" amounts, opt "selector" labelSelector,
    optText "storageClassName", optText "volumeAttributesClassName", optText "volumeMode",
    optText "volumeName"]

/-- Sources that several others are projected from. -/
def projections : String × Presence × Schema :=
  optList "sources" "VolumeProjection" [
    optRecord "clusterTrustBundle" "ClusterTrustBundleProjection"
      [opt "labelSelector" labelSelector, optText "name", optFlag "optional", needText "path",
        optText "signerName"],
    optRecord "configMap" "ConfigMapProjection" [keyItems, needText "name", optFlag "optional"],
    optRecord "downwardAPI" "DownwardAPIProjection" [fieldItems],
    optRecord "secret" "SecretProjection" [keyItems, needText "name", optFlag "optional"],
    optRecord "serviceAccountToken" "ServiceAccountTokenProjection"
      [optText "audience", optLong "expirationSeconds", needText "path"]]

/-- Sources inside the cluster and on the node. -/
def localSources : List (String × Presence × Schema) :=
  [optRecord "configMap" "ConfigMapVolumeSource"
      [optInt "defaultMode", keyItems, needText "name", optFlag "optional"],
    optRecord "downwardAPI" "DownwardAPIVolumeSource" [optInt "defaultMode", fieldItems],
    optRecord "emptyDir" "EmptyDirVolumeSource" [optText "medium", optText "sizeLimit"],
    optRecord "ephemeral" "EphemeralVolumeSource"
      [optRecord "volumeClaimTemplate" "PersistentVolumeClaimTemplate"
        [opt "metadata" objectMeta,
          needRecord "spec" "PersistentVolumeClaimSpec" [] storageClaim]],
    optRecord "hostPath" "HostPathVolumeSource" [needText "path", optText "type"],
    optRecord "image" "ImageVolumeSource" [optText "pullPolicy", optText "reference"],
    optRecord "persistentVolumeClaim" "PersistentVolumeClaimVolumeSource"
      [needText "claimName", optFlag "readOnly"],
    optRecord "projected" "ProjectedVolumeSource" [optInt "defaultMode", projections],
    optRecord "secret" "SecretVolumeSource"
      [optInt "defaultMode", keyItems, optFlag "optional", optText "secretName"]]

/-- Sources on networks of storage. -/
def networkSources : List (String × Presence × Schema) :=
  [optRecord "cephfs" "CephFSVolumeSource" [needList "monitors" .text, optText "path",
      optFlag "readOnly", optText "secretFile", localReference "secretRef", optText "user"],
    optRecord "csi" "CSIVolumeSource" [needText "driver", optText "fsType",
      localReference "nodePublishSecretRef", optFlag "readOnly", optDict "volumeAttributes"],
    optRecord "fc" "FCVolumeSource" [optText "fsType", optInt "lun", optFlag "readOnly",
      optTexts "targetWWNs", optTexts "wwids"],
    optRecord "flexVolume" "FlexVolumeSource" [needText "driver", optText "fsType",
      optDict "options", optFlag "readOnly", localReference "secretRef"],
    optRecord "flocker" "FlockerVolumeSource" [optText "datasetName", optText "datasetUUID"],
    optRecord "gitRepo" "GitRepoVolumeSource"
      [optText "directory", needText "repository", optText "revision"],
    optRecord "glusterfs" "GlusterfsVolumeSource"
      [needText "endpoints", needText "path", optFlag "readOnly"],
    optRecord "iscsi" "ISCSIVolumeSource" [optFlag "chapAuthDiscovery",
      optFlag "chapAuthSession", optText "fsType", optText "initiatorName", needText "iqn",
      optText "iscsiInterface", needInt "lun",
      optTexts "portals", optFlag "readOnly", localReference "secretRef",
      needText "targetPortal"],
    optRecord "nfs" "NFSVolumeSource" [needText "path", optFlag "readOnly", needText "server"],
    optRecord "quobyte" "QuobyteVolumeSource" [optText "group", optFlag "readOnly",
      needText "registry", optText "tenant", optText "user", needText "volume"],
    optRecord "rbd" "RBDVolumeSource" [optText "fsType", needText "image", optText "keyring",
      needList "monitors" .text, optText "pool", optFlag "readOnly", localReference "secretRef",
      optText "user"]]

/-- Sources of single providers. -/
def providerSources : List (String × Presence × Schema) :=
  [optRecord "awsElasticBlockStore" "AWSElasticBlockStoreVolumeSource"
      [optText "fsType", optInt "partition", optFlag "readOnly", needText "volumeID"],
    optRecord "azureDisk" "AzureDiskVolumeSource" [optText "cachingMode", needText "diskName",
      needText "diskURI", optText "fsType", optText "kind", optFlag "readOnly"],
    optRecord "azureFile" "AzureFileVolumeSource"
      [optFlag "readOnly", needText "secretName", needText "shareName"],
    optRecord "cinder" "CinderVolumeSource"
      [optText "fsType", optFlag "readOnly", localReference "secretRef", needText "volumeID"],
    optRecord "gcePersistentDisk" "GCEPersistentDiskVolumeSource"
      [optText "fsType", optInt "partition", needText "pdName", optFlag "readOnly"],
    optRecord "photonPersistentDisk" "PhotonPersistentDiskVolumeSource"
      [optText "fsType", needText "pdID"],
    optRecord "portworxVolume" "PortworxVolumeSource"
      [optText "fsType", optFlag "readOnly", needText "volumeID"],
    optRecord "scaleIO" "ScaleIOVolumeSource" [optText "fsType", needText "gateway",
      optText "protectionDomain", optFlag "readOnly",
      needRecord "secretRef" "LocalObjectReference" [("name", .str "")] [needText "name"],
      optFlag "sslEnabled", optText "storageMode", optText "storagePool", needText "system",
      optText "volumeName"],
    optRecord "storageos" "StorageOSVolumeSource" [optText "fsType", optFlag "readOnly",
      localReference "secretRef", optText "volumeName", optText "volumeNamespace"],
    optRecord "vsphereVolume" "VsphereVirtualDiskVolumeSource" [optText "fsType",
      optText "storagePolicyID", optText "storagePolicyName", needText "volumePath"]]

/-- A volume of a pod. -/
def volume : Schema :=
  .record "Volume" (needText "name" :: localSources ++ networkSources ++ providerSources)

end Schema

end NodeFeatureOperator
