import SparkTuner.CommandLine.Log
import SparkTuner.Main
import SparkTuner.Proofs.Combine
import SparkTuner.Proofs.CommandLine.Combine
import SparkTuner.Proofs.CommandLine.Layers
import SparkTuner.Proofs.CommandLine.Obstacles
import SparkTuner.Proofs.Platform.ShuffleManager
import SparkTuner.Proofs.Plugin.Version
import SparkTuner.Proofs.Release
import SparkTuner.Proofs.Rules.Classpath
import SparkTuner.Proofs.Rules.Kryo
import SparkTuner.Proofs.Rules.ShufflePartitions
import SparkTuner.Proofs.Tuner.Adaptive
import SparkTuner.Proofs.Tuner.GpuShare
import SparkTuner.Proofs.Tuner.Irrelevant
import SparkTuner.Proofs.Tuner.Partitions
import SparkTuner.Proofs.Version.Engine
